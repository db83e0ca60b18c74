import FrankenSnowflake.Core.SqlStatements
import FrankenSnowflake.Foundation.Ascii

/-!
# What guards read of a text

Counting, the read classification and the side effects of a read look at
significant tokens only: at the kind of a token, at the text of one that is not
a word, and at a word in lower case.  So they agree on texts whose significant
tokens are alike.
-/

namespace FrankenSnowflake.SqlLexer

open Foundation.Ascii (toLower_eq_iff)

/-! ## Tokens that guards do not tell apart -/

structure Alike (t t' : SqlToken) : Prop where
  kind : t.kind = t'.kind
  lower : t.text.map Char.toLower = t'.text.map Char.toLower
  text : t.kind ≠ .word → t.text = t'.text

theorem Alike.of_content {t t' : SqlToken} (h : t.content = t'.content) : Alike t t' :=
  ⟨congrArg Prod.fst h, congrArg (fun c ↦ c.2.map Char.toLower) h, fun _ ↦ congrArg Prod.snd h⟩

theorem forall₂_alike_of_content {ts ts' : List SqlToken}
    (h : ts.map SqlToken.content = ts'.map SqlToken.content) : List.Forall₂ Alike ts ts' := by
  rw [← List.forall₂_eq_eq_eq, List.forall₂_map_left_iff, List.forall₂_map_right_iff] at h
  exact h.imp fun _ _ ↦ Alike.of_content

variable {t t' : SqlToken} {ts ts' : List SqlToken} {l l' : SqlLex}

theorem Alike.word? (h : Alike t t') : t.word? = t'.word? := by
  simp only [SqlToken.word?, h.kind, h.lower]

theorem Alike.single_iff (h : Alike t t') {d : Char} (hd : d.isAlpha = false) :
    t.text = [d] ↔ t'.text = [d] := by
  have hlower (s : List Char) : s.map Char.toLower = [d] ↔ s = [d] := by
    constructor
    · intro hs
      obtain ⟨c, rfl, hc⟩ := List.map_eq_singleton_iff.mp hs
      rw [(toLower_eq_iff hd).mp hc]
    · rintro rfl
      rw [List.map_singleton, (toLower_eq_iff hd).mpr rfl]
  rw [← hlower, h.lower, hlower]

theorem words_congr (h : List.Forall₂ Alike ts ts') :
    ts.filterMap SqlToken.word? = ts'.filterMap SqlToken.word? := by
  induction h with
  | nil => rfl
  | cons ht _ ih =>
      rw [List.filterMap_cons, List.filterMap_cons, ht.word?, ih]

theorem countSegments_congr (h : List.Forall₂ Alike ts ts') (content : Bool) :
    SqlLex.countSegments content ts = SqlLex.countSegments content ts' := by
  induction h generalizing content with
  | nil => rfl
  | cons ht _ ih => simp only [SqlLex.countSegments, ht.kind, ih]

theorem closesEmpty_congr (h : List.Forall₂ Alike ts ts') (content : Bool) :
    closesEmpty content ts = closesEmpty content ts' := by
  induction h generalizing content with
  | nil => rfl
  | cons ht _ ih => simp only [closesEmpty, ht.kind, ih]

theorem dropOpen_congr (h : List.Forall₂ Alike ts ts') :
    List.Forall₂ Alike (ts.dropWhile (·.text = ['('])) (ts'.dropWhile (·.text = ['('])) := by
  induction h with
  | nil => exact .nil
  | @cons t t' _ _ ht hts ih =>
      have hopen : t.text = ['('] ↔ t'.text = ['('] := ht.single_iff rfl
      simp only [List.dropWhile_cons, decide_eq_true_eq, hopen]
      split_ifs
      · exact ih
      · exact .cons ht hts

theorem withMainVerbIsSelect_congr (h : List.Forall₂ Alike ts ts') (depth : Nat) :
    withMainVerbIsSelect depth ts = withMainVerbIsSelect depth ts' := by
  induction h generalizing depth with
  | nil => rfl
  | cons ht _ ih =>
      simp only [withMainVerbIsSelect, ht.single_iff (d := '(') rfl, ht.single_iff (d := ')') rfl,
        ht.word?, ih]

/-! ## Guards -/

/-- Texts whose significant tokens guards do not tell apart. -/
def SqlLex.Alike (l l' : SqlLex) : Prop := List.Forall₂ SqlLexer.Alike l.significant l'.significant

theorem SqlLex.Alike.of_content
    (h : l.significant.map SqlToken.content = l'.significant.map SqlToken.content) : l.Alike l' :=
  forall₂_alike_of_content h

theorem SqlLex.Alike.words (h : l.Alike l') : l.words = l'.words := by
  rw [words_eq_significant, words_eq_significant, words_congr h]

theorem SqlLex.Alike.firstWord (h : l.Alike l') : l.firstWord = l'.firstWord := by
  rw [SqlLex.firstWord, SqlLex.firstWord, ← List.head?_filterMap, ← List.head?_filterMap,
    words_congr h]

theorem SqlLex.Alike.statementCount (h : l.Alike l') : l.statementCount = l'.statementCount :=
  countSegments_congr h false

theorem SqlLex.Alike.hasEmptyStatement (h : l.Alike l') :
    l.hasEmptyStatement = l'.hasEmptyStatement := closesEmpty_congr h false

theorem SqlLex.Alike.readSideEffect (h : l.Alike l') : readSideEffect l = readSideEffect l' := by
  rw [SqlLexer.readSideEffect, SqlLexer.readSideEffect, h.words]

theorem SqlLex.Alike.isReadStatement (h : l.Alike l') : isReadStatement l = isReadStatement l' := by
  have hdrop := dropOpen_congr h
  unfold SqlLexer.isReadStatement
  generalize l.significant.dropWhile (·.text = ['(']) = ts at hdrop ⊢
  generalize l'.significant.dropWhile (·.text = ['(']) = ts' at hdrop ⊢
  cases hdrop with
  | nil => rfl
  | cons ht hts => simp only [ht.word?, withMainVerbIsSelect_congr hts]

/-! ## The word that a statement begins with -/

/-- The first significant token behind opening parentheses, if it is a word. -/
def SqlLex.leadingWord (l : SqlLex) : Option (List Char) :=
  (l.significant.dropWhile (·.text = ['('])).head?.bind SqlToken.word?

/-- The tokens behind the one that a statement begins with. -/
def SqlLex.behindLeading (l : SqlLex) : List SqlToken :=
  (l.significant.dropWhile (·.text = ['('])).tail

/-- A statement is a read by the word that it begins with, and a `WITH` by its
main verb. -/
theorem isReadStatement_iff {l : SqlLex} :
    isReadStatement l ↔ ∃ word ∈ l.leadingWord,
      word ∈ readVerbs ∨ (word = "with".toList ∧ withMainVerbIsSelect 0 l.behindLeading) := by
  unfold isReadStatement SqlLex.leadingWord SqlLex.behindLeading
  generalize l.significant.dropWhile (·.text = ['(']) = ts
  cases ts with
  | nil => simp
  | cons t ts =>
      rw [List.head?_cons, Option.bind_some, List.tail_cons]
      cases hword : t.word? with
      | none => simp [hword]
      | some word =>
          simp only [hword, Option.mem_def, Option.some.injEq, exists_eq_left', ne_eq, ite_not,
            List.contains_iff_mem]
          split_ifs with hread hwith
          · simp only [hread, true_or]
          · exact ((or_iff_right hread).trans (and_iff_right hwith)).symm
          · simp only [hread, hwith, false_and, or_self]

theorem not_mem_readVerbs {word : List Char} (h : isMutatingVerb word) : word ∉ readVerbs := by
  have hall : ∀ verb ∈ mutatingVerbs, verb ∉ readVerbs := by decide
  exact hall word (List.contains_iff_mem.mp h)

theorem ne_with_of_isMutatingVerb {word : List Char} (h : isMutatingVerb word) :
    word ≠ "with".toList := by
  rintro rfl
  cases h

theorem with_not_mem_readVerbs : "with".toList ∉ readVerbs := by decide

/-- A statement that begins with a mutating verb is not a read. -/
theorem isReadStatement_of_mutating {l : SqlLex} {word : List Char}
    (hword : l.leadingWord = some word) (h : isMutatingVerb word) : isReadStatement l = false := by
  rw [Bool.eq_false_iff]
  intro hread
  obtain ⟨other, hother, hkind⟩ := isReadStatement_iff.mp hread
  obtain rfl := Option.some.inj (hother.symm.trans hword)
  rcases hkind with hkind | hkind
  · exact not_mem_readVerbs h hkind
  · exact ne_with_of_isMutatingVerb h hkind.1

/-- A parenthesis is no word. -/
theorem ne_paren_of_mem_tokens {sql : List Char} {t : SqlToken} (ht : t ∈ (lex sql).tokens)
    (hword : t.kind = .word) : t.text ≠ ['('] := by
  have hall := forall_tokenContent (P := fun c ↦ c.1 = .word → c.2 ≠ ['(']) ?_ sql
  · exact hall _ (List.mem_map_of_mem ht) hword
  · intro c rest s harm hkind (htext : s.text = ['('])
    have hfirst := harm.text_eq
    rw [htext] at hfirst
    cases harm with
    | word hc =>
        obtain rfl : '(' = c := (List.cons.inj hfirst).1
        revert hc
        decide
    | whitespace | line | block | string | identifier | dollar | var | semicolon | number | symbol =>
        cases hkind

theorem ne_paren_of_mem_significant {sql : List Char} {t : SqlToken}
    (ht : t ∈ (lex sql).significant) : t.kind = .word → t.text ≠ ['('] :=
  ne_paren_of_mem_tokens (List.mem_filter.mp ht).1

theorem text_of_semicolon {sql : List Char} {t : SqlToken} (ht : t ∈ (lex sql).significant)
    (hkind : t.kind = .semicolon) : t.text = [';'] := by
  have hall := forall_tokenContent (P := fun c ↦ c.1 = .semicolon → c.2 = [';']) ?_ sql
  · exact hall _ (List.mem_map_of_mem (List.mem_filter.mp ht).1) hkind
  · intro c rest s harm hkind
    cases harm with
    | semicolon hc => rw [hc]
    | whitespace | line | block | string | identifier | dollar | var | word | number | symbol =>
        cases hkind

/-- The word that a statement begins with is its first word. -/
theorem firstWord_of_leadingWord {l : SqlLex} {word : List Char}
    (hparen : ∀ t ∈ l.significant, t.kind = .word → t.text ≠ ['('])
    (h : l.leadingWord = some word) : l.firstWord = some word := by
  unfold SqlLex.leadingWord at h
  unfold SqlLex.firstWord
  generalize l.significant = ts at hparen h ⊢
  induction ts with
  | nil => cases h
  | cons t ts ih =>
      rw [List.forall_mem_cons] at hparen
      rw [List.findSome?_cons]
      by_cases htext : t.text = ['(']
      · have hword : t.word? = none := by
          rw [SqlToken.word?, if_neg fun hkind ↦ hparen.1 hkind htext]
        rw [List.dropWhile_cons_of_pos (by simpa using htext)] at h
        rw [hword]
        exact ih hparen.2 h
      · rw [List.dropWhile_cons_of_neg (by simpa using htext)] at h
        rw [show t.word? = some word from h]

/-! ## Statements by themselves -/

/-- A text of these tokens. -/
def SqlLex.ofTokens (ts : List SqlToken) : SqlLex := ⟨ts, false, false⟩

theorem significant_ofTokens (h : ∀ t ∈ ts, t.isTrivia = false) :
    (SqlLex.ofTokens ts).significant = ts :=
  List.filter_eq_self.mpr fun t ht ↦ by rw [h t ht]; rfl

theorem LexesTo.alike {sql : List Char} (h : LexesTo sql ts) (hts : ∀ t ∈ ts, t.isTrivia = false) :
    (lex sql).Alike (.ofTokens ts) := by
  apply SqlLex.Alike.of_content
  rw [significant_ofTokens hts]
  exact h

theorem mem_statementTokens {s seg ts : List SqlToken} (h : s ∈ statementTokens seg ts) :
    ∀ t ∈ s, t ∈ seg ∨ t ∈ ts := by
  have hlast {seg : List SqlToken} (h : s ∈ (if seg.isEmpty then [] else [seg])) : s = seg := by
    split_ifs at h
    · cases h
    · exact List.mem_singleton.mp h
  induction ts generalizing seg with
  | nil =>
      rw [hlast h]
      exact fun t ht ↦ .inl ht
  | cons u ts ih =>
      intro t ht
      rw [statementTokens] at h
      split_ifs at h with hsemi hseg
      · rcases ih h t ht with h | h
        · cases h
        · exact .inr (.tail u h)
      · rcases List.mem_append.mp h with hs | hs
        · rw [List.mem_singleton.mp hs] at ht
          exact .inl ht
        · rcases ih hs t ht with h | h
          · cases h
          · exact .inr (.tail u h)
      · rcases ih h t ht with h | h
        · rcases List.mem_append.mp h with h | h
          · exact .inl h
          · rw [List.mem_singleton.mp h]
            exact .inr List.mem_cons_self
        · exact .inr (.tail u h)

theorem isTrivia_of_mem_significant {l : SqlLex} {t : SqlToken} (h : t ∈ l.significant) :
    t.isTrivia = false := by
  simpa using (List.mem_filter.mp h).2

/-- What guards read of the statements is what they read of the segments. -/
theorem forall_splitStatements {sql : List Char} {P : SqlLex → Prop}
    (hP : ∀ {l l' : SqlLex}, l.Alike l' → (P l ↔ P l')) :
    (∀ st ∈ splitStatements sql, P (lex st)) ↔
      ∀ s ∈ statementTokens [] (lex sql).significant, P (.ofTokens s) := by
  have hsplit := splitStatements_lexesTo sql
  have hplain : ∀ s ∈ statementTokens [] (lex sql).significant, ∀ t ∈ s, t.isTrivia = false := by
    intro s hs t ht
    rcases mem_statementTokens hs t ht with h | h
    · cases h
    · exact isTrivia_of_mem_significant h
  generalize splitStatements sql = statements at hsplit ⊢
  generalize statementTokens [] (lex sql).significant = segments at hsplit hplain ⊢
  induction hsplit with
  | nil => exact iff_of_true (List.forall_mem_nil _) (List.forall_mem_nil _)
  | cons hst _ ih =>
      rw [List.forall_mem_cons] at hplain
      rw [List.forall_mem_cons, List.forall_mem_cons]
      exact and_congr (hP (hst.alike hplain.1)) (ih hplain.2)

theorem length_splitStatements (sql : List Char) :
    (splitStatements sql).length = (lex sql).statementCount := by
  rw [(splitStatements_lexesTo sql).length_eq, SqlLex.statementCount]
  have hcount (seg ts : List SqlToken) :
      (statementTokens seg ts).length = SqlLex.countSegments (!seg.isEmpty) ts := by
    induction ts generalizing seg with
    | nil => cases seg <;> rfl
    | cons t ts ih =>
        rw [statementTokens, SqlLex.countSegments]
        split_ifs with hsemi hseg
        · simp [ih, hseg]
        · simp [ih, hseg, Nat.add_comm]
        · rw [ih, List.isEmpty_eq_false_iff.mpr (List.append_ne_nil_of_right_ne_nil _ (by simp))]
          rfl
  exact hcount [] (lex sql).significant

theorem isTrivia_of_mem_statementTokens {sql : List Char} {s : List SqlToken}
    (hs : s ∈ statementTokens [] (lex sql).significant) : ∀ t ∈ s, t.isTrivia = false := by
  intro t ht
  rcases mem_statementTokens hs t ht with h | h
  · cases h
  · exact isTrivia_of_mem_significant h

theorem firstWord_ofTokens {s : List SqlToken} (h : ∀ t ∈ s, t.isTrivia = false) :
    (SqlLex.ofTokens s).firstWord = s.findSome? SqlToken.word? := by
  rw [SqlLex.firstWord, significant_ofTokens h]

theorem statementTokens_append {us : List SqlToken} (h : ∀ t ∈ us, t.kind ≠ .semicolon)
    (seg ts : List SqlToken) : statementTokens seg (us ++ ts) = statementTokens (seg ++ us) ts := by
  induction us generalizing seg with
  | nil => rw [List.nil_append, List.append_nil]
  | cons t us ih =>
      rw [List.forall_mem_cons] at h
      rw [List.cons_append, statementTokens, if_neg h.1, ih h.2, List.append_assoc]
      rfl

/-- The statement that is being read goes on. -/
theorem head?_statementTokens {seg : List SqlToken} (h : seg ≠ []) (ts : List SqlToken) :
    ∃ us, (statementTokens seg ts).head? = some (seg ++ us) := by
  induction ts generalizing seg with
  | nil => exact ⟨[], by simp [statementTokens, h]⟩
  | cons t ts ih =>
      rw [statementTokens]
      split_ifs with hsemi hempty
      · exact absurd (List.isEmpty_iff.mp hempty) h
      · exact ⟨[], by simp⟩
      · obtain ⟨us, hus⟩ := ih (List.append_ne_nil_of_left_ne_nil h [t])
        exact ⟨t :: us, by rw [hus, List.append_assoc]; rfl⟩

/-- A text that begins with a word: parentheses, the word and what is behind it. -/
theorem significant_of_leadingWord {sql word : List Char}
    (h : (lex sql).leadingWord = some word) :
    ∃ us t, (lex sql).significant = us ++ t :: (lex sql).behindLeading ∧
      (∀ u ∈ us, u.text = ['('] ∧ u.kind ≠ .semicolon) ∧
      t.word? = some word ∧ t.text ≠ ['('] := by
  obtain ⟨t, ht, hword⟩ := Option.bind_eq_some_iff.mp h
  obtain ⟨ts, hts⟩ := List.head?_eq_some_iff.mp ht
  have hsplit := List.takeWhile_append_dropWhile (p := (·.text = ['('])) (l := (lex sql).significant)
  refine ⟨(lex sql).significant.takeWhile (·.text = ['(']), t, ?_, ?_, hword, ?_⟩
  · rw [SqlLex.behindLeading, hts, List.tail_cons, ← hts, hsplit]
  · intro u hu
    have hopen : u.text = ['('] := by simpa using List.mem_takeWhile_imp hu
    refine ⟨hopen, fun hkind ↦ ?_⟩
    have htext := text_of_semicolon ((List.takeWhile_sublist _).subset hu) hkind
    rw [hopen] at htext
    cases htext
  · have hmem : t ∈ (lex sql).significant :=
      (List.dropWhile_sublist _).subset (List.mem_of_mem_head? ht)
    exact ne_paren_of_mem_significant hmem (word?_eq_some.mp hword).1

/-- The word that such tokens begin with. -/
theorem leadingWord_ofTokens {us vs : List SqlToken} {t : SqlToken}
    (hplain : ∀ u ∈ us ++ t :: vs, u.isTrivia = false) (hopen : ∀ u ∈ us, u.text = ['('])
    (ht : t.text ≠ ['(']) :
    (SqlLex.ofTokens (us ++ t :: vs)).leadingWord = t.word? ∧
      (SqlLex.ofTokens (us ++ t :: vs)).behindLeading = vs := by
  rw [SqlLex.leadingWord, SqlLex.behindLeading, significant_ofTokens hplain,
    List.dropWhile_append_of_pos (by simpa using hopen),
    List.dropWhile_cons_of_neg (by simpa using ht)]
  exact ⟨rfl, rfl⟩

end FrankenSnowflake.SqlLexer
