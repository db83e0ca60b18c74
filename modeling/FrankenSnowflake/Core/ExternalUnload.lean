import FrankenSnowflake.Core.SqlLexerLocal
import FrankenSnowflake.Core.WriteIntent

/-!
# Unloads to an external location

`COPY INTO '<scheme>://...'` moves data out of Snowflake and needs an opt-in of
its own.  The verb of a statement is found among its words, whatever symbols
stand around them; the target of a `COPY INTO` is found among its significant
tokens.  The two views agree where nothing stands between the words.
-/

namespace FrankenSnowflake.WriteIntent

open SqlLexer Redact

/-- Tokens without a word among them. -/
def NoWord (ts : List SqlToken) : Prop := ∀ t ∈ ts, t.word? = none

theorem NoWord.filterMap {ts : List SqlToken} (h : NoWord ts) : ts.filterMap SqlToken.word? = [] :=
  List.filterMap_eq_nil_iff.mpr h

/-- A single-quoted or a dollar-quoted string constant. -/
def isStringConstant (t : SqlToken) : Bool := t.kind = .stringLiteral || t.kind = .dollarString

/-- The words of a text start with `COPY INTO`, and the significant token behind
`INTO` is a string constant that names a scheme. -/
structure IsExternalUnload (sql : List Char) (before : List SqlToken) (copy : SqlToken)
    (between : List SqlToken) (into target : SqlToken) (after : List SqlToken) : Prop where
  tokens : (lex sql).significant = before ++ copy :: (between ++ into :: target :: after)
  leading : NoWord before
  verb : copy.word? = some "copy".toList
  inner : NoWord between
  preposition : into.word? = some "into".toList
  constant : isStringConstant target
  scheme : contains target.text "://".toList

variable {sql : List Char} {before between after : List SqlToken} {copy into target : SqlToken}

/-- The verb of such a text is found, whatever stands in front of it. -/
theorem IsExternalUnload.classify_eq
    (h : IsExternalUnload sql before copy between into target after) :
    classifyWriteStatement sql = copyIntoTargetKind sql := by
  have hwords : (lex sql).words =
      "copy".toList :: "into".toList :: (target :: after).filterMap SqlToken.word? := by
    rw [words_eq_significant, h.tokens, List.filterMap_append, h.leading.filterMap, List.nil_append,
      List.filterMap_cons_some h.verb, List.filterMap_append, h.inner.filterMap, List.nil_append,
      List.filterMap_cons_some h.preposition]
  unfold classifyWriteStatement
  rw [hwords]
  rfl

/-- A target that starts with a word, or with a symbol behind the first word, is
taken for a table. -/
theorem copyIntoTargetKind_of_words {first second : SqlToken} {rest : List SqlToken}
    (hsql : (lex sql).significant = first :: second :: rest)
    (hnone : first.word? = none ∨ second.word? = none) :
    copyIntoTargetKind sql = .copyIntoTable := by
  unfold copyIntoTargetKind
  rw [hsql]
  apply if_neg
  rintro ⟨hfirst, hsecond⟩
  rcases hnone with hnone | hnone
  · cases hnone.symm.trans hfirst
  · cases hnone.symm.trans hsecond

theorem head?_of_stringLiteral {t : SqlToken} (ht : t ∈ (lex sql).significant)
    (hkind : t.kind = .stringLiteral) : t.text.head? = some '\'' := by
  have hstring : ∀ t ∈ tokenContent sql, t.1 = .stringLiteral → t.2.head? = some '\'' := by
    apply forall_tokenContent
    intro c rest s harm hs
    cases harm with
    | string hc => exact congrArg some hc
    | whitespace | line | block | identifier | dollar | var | semicolon | word | number | symbol =>
        cases hs
  exact hstring t.content (List.mem_map_of_mem (List.mem_of_mem_filter ht)) hkind

/-- An unload to an external location is recognised exactly when its text starts
with the two words and single-quotes the location.  A symbol in front of `COPY`
or `INTO`, and a dollar-quoted location, make it a load into a table. -/
theorem classify_copyIntoExternal_iff
    (h : IsExternalUnload sql before copy between into target after) :
    classifyWriteStatement sql = .copyIntoExternal ↔
      before = [] ∧ between = [] ∧ target.kind = .stringLiteral := by
  rw [h.classify_eq]
  have hsql := h.tokens
  constructor
  · intro hexternal
    cases before with
    | cons t before =>
        obtain ⟨u, us, hus⟩ := List.exists_cons_of_ne_nil
          (List.append_ne_nil_of_right_ne_nil before (List.cons_ne_nil copy _))
        rw [List.cons_append, hus] at hsql
        rw [copyIntoTargetKind_of_words hsql (.inl (h.leading t List.mem_cons_self))] at hexternal
        cases hexternal
    | nil =>
        cases between with
        | cons t between =>
            rw [copyIntoTargetKind_of_words hsql (.inr (h.inner t List.mem_cons_self))]
              at hexternal
            cases hexternal
        | nil =>
            refine ⟨rfl, rfl, ?_⟩
            unfold copyIntoTargetKind at hexternal
            rw [hsql] at hexternal
            dsimp only [List.nil_append] at hexternal
            rw [if_pos ⟨h.verb, h.preposition⟩] at hexternal
            split_ifs at hexternal with hstage hstring
            exact hstring.1
  · rintro ⟨rfl, rfl, hkind⟩
    have hquote := @head?_of_stringLiteral sql _ (hsql ▸ by simp) hkind
    have hstage : target.text.head? ≠ some '@' := by
      rw [hquote]
      decide
    unfold copyIntoTargetKind
    rw [hsql]
    dsimp only [List.nil_append]
    rw [if_pos ⟨h.verb, h.preposition⟩, if_neg hstage, if_pos ⟨hkind, h.scheme⟩]

/-- The tokens of `copy into`, the constant behind it at byte 10. -/
theorem isExternalUnload_plain :
    IsExternalUnload "copy into 's3://b/p'".toList [] ⟨.word, "copy".toList, 0⟩ []
      ⟨.word, "into".toList, 5⟩ ⟨.stringLiteral, "'s3://b/p'".toList, 10⟩ [] where
  tokens := by decide +kernel
  leading := nofun
  verb := by decide
  inner := nofun
  preposition := by decide
  constant := by decide
  scheme := by decide +kernel

theorem isExternalUnload_dollar :
    IsExternalUnload "copy into $$s3://b/p$$".toList [] ⟨.word, "copy".toList, 0⟩ []
      ⟨.word, "into".toList, 5⟩ ⟨.dollarString, "$$s3://b/p$$".toList, 10⟩ [] where
  tokens := by decide +kernel
  leading := nofun
  verb := by decide
  inner := nofun
  preposition := by decide
  constant := by decide
  scheme := by decide +kernel

theorem classify_copyIntoExternal_iff_plain :
    classifyWriteStatement "copy into 's3://b/p'".toList = .copyIntoExternal :=
  (classify_copyIntoExternal_iff isExternalUnload_plain).mpr ⟨rfl, rfl, rfl⟩

/-- A dollar-quoted location passes as a table. -/
theorem not_classify_copyIntoExternal :
    ¬ ∀ sql before copy between into target after,
      IsExternalUnload sql before copy between into target after →
        classifyWriteStatement sql = .copyIntoExternal := by
  intro h
  have hexternal := h _ _ _ _ _ _ _ isExternalUnload_dollar
  have htable : classifyWriteStatement "copy into $$s3://b/p$$".toList = .copyIntoTable := by
    decide +kernel
  cases htable.symm.trans hexternal

end FrankenSnowflake.WriteIntent
