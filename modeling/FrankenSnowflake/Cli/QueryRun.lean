import FrankenSnowflake.Cli.ConfirmedWrite
import FrankenSnowflake.Core.Guardrails

/-!
# The read path

`query run` refuses a text before it reaches a transport: a single statement is
looked at as a whole, a batch statement by statement.
-/

namespace FrankenSnowflake.QueryRun

open SqlLexer Guardrails
open Http (Text)
open ConfirmedWrite (ambiguousSqlReason hasMultipleStatements)

/-! ## Guards -/

structure QueryRunOptions where
  bindingsEnv : Option Text := none
  bindingsJson : Option Text := none
  allowMultipleStatements : Bool := false
deriving DecidableEq, Repr

def sideEffectRefusalMessage (function : Text) : String :=
  let function := String.ofList (function.map Char.toUpper)
  s!"`{function}` has side effects (system functions outside the read-only allowlist can cancel queries, abort sessions or change objects, and NEXTVAL advances a sequence), so the read path refuses it. The allowlisted read-only SYSTEM$ functions (e.g. SYSTEM$TYPEOF, SYSTEM$CLUSTERING_INFORMATION, SYSTEM$WAIT) are accepted."

/-- A single trustworthy read statement with no side-effecting call. -/
def isSelectLike (sql : Text) : Bool :=
  let lexed := lex sql
  !lexed.isUnreliable && isReadStatement lexed && (readSideEffect lexed).isNone

/-- Why a statement of a batch is refused. -/
def statementRefusal (position total : Nat) (statement : Text) : Option SnowflakeError :=
  match readSideEffect (lex statement) with
  | some function =>
      some ⟨.mutationRefused,
        s!"statement {position} of {total}: {sideEffectRefusalMessage function}"⟩
  | none =>
      if ¬ isSelectLike statement then
        some ⟨.mutationRefused, s!"statement {position} of {total} is not a read (SELECT/WITH/SHOW/DESCRIBE/EXPLAIN); a batch runs reads only, and `query write` runs one mutation at a time."⟩
      else none

/-- The loop over the statements of a batch. -/
def statementsRefusal (total : Nat) : Nat → List Text → Option SnowflakeError
  | _, [] => none
  | position, statement :: statements =>
      (statementRefusal position total statement).or
        (statementsRefusal total (position + 1) statements)

/-- Why a batch is refused. -/
def batchRefusal (sql : Text) (statements : List Text) (options : QueryRunOptions) :
    Option SnowflakeError :=
  if options.bindingsEnv.isSome ∨ options.bindingsJson.isSome then
    some ⟨.usageError, "Snowflake does not support bindings in a multi-statement request; run each statement on its own with --bindings-env."⟩
  else if statements.length < 2 ∨ (lex sql).hasEmptyStatement then
    some ⟨.multiStatementRefused, "A batch needs two or more statements, each ended by a single `;`; an empty statement (`;;`) is refused."⟩
  else statementsRefusal statements.length 1 statements

/-- What `query run` does before anything is sent. -/
inductive QueryRunStart where
  | usageError (message : String)
  | refused (error : SnowflakeError)
  | single (profile sql : Text)
  | batch (profile sql : Text) (statements : List Text)
deriving DecidableEq, Repr

/-- `query_run_outcome`, up to the transport. -/
def queryRunOutcome (profile sql : Option Text) (options : QueryRunOptions) : QueryRunStart :=
  match profile, sql with
  | none, _ => .usageError "Missing --profile for `query run`. Pass --profile <profile> or set FRANKEN_SNOWFLAKE_DEFAULT_PROFILE."
  | some _, none => .usageError "Missing --sql for `query run`."
  | some profile, some sql =>
      match ambiguousSqlReason sql with
      | some reason => .refused ⟨.multiStatementRefused, reason⟩
      | none =>
          if hasMultipleStatements sql then
            if ¬ options.allowMultipleStatements then
              .refused ⟨.multiStatementRefused, "Multiple SQL statements are refused by default; submit exactly one read-only statement, or pass --allow-multiple-statements to run a batch of reads in one request."⟩
            else
              let statements := splitStatements sql
              match batchRefusal sql statements options with
              | some error => .refused error
              | none => .batch profile sql statements
          else
            match readSideEffect (lex sql) with
            | some function => .refused ⟨.mutationRefused, sideEffectRefusalMessage function⟩
            | none =>
                if ¬ isSelectLike sql then
                  .refused ⟨.mutationRefused, "`query run` is the read path: it accepts a single SELECT/WITH/SHOW/DESCRIBE/EXPLAIN. To MUTATE data (INSERT/UPDATE/DELETE/MERGE/COPY INTO/PUT/DDL) use `query write`, which executes directly once the profile sets WRITE_ENABLED. (A typo'd keyword like `selcet` also lands here; if you meant to read, start with SELECT.)"⟩
                else .single profile sql

/-- The text goes to the transport. -/
def QueryRunStart.Accepts (start : QueryRunStart) (sql : Text) : Prop :=
  (∃ profile, start = .single profile sql) ∨ ∃ profile statements, start = .batch profile sql statements

/-! ## Batches -/

theorem statementsRefusal_eq_none {total position : Nat} {statements : List Text}
    (h : statementsRefusal total position statements = none) :
    ∀ statement ∈ statements, isSelectLike statement := by
  induction statements generalizing position with
  | nil => exact List.forall_mem_nil _
  | cons statement statements ih =>
      obtain ⟨hhead, htail⟩ := Option.or_eq_none_iff.mp h
      refine List.forall_mem_cons.mpr ⟨?_, ih htail⟩
      unfold statementRefusal at hhead
      split at hhead
      · cases hhead
      · split_ifs at hhead with hread
        exact hread

theorem isSelectLike_iff {sql : Text} : isSelectLike sql ↔
    (lex sql).isUnreliable = false ∧ isReadStatement (lex sql) ∧ readSideEffect (lex sql) = none := by
  simp [isSelectLike, and_assoc]

/-! ## Single statements -/

theorem semicolons_of_nil {ts : List SqlToken} (h : statementTokens [] ts = []) :
    ∀ t ∈ ts, t.kind = .semicolon := by
  induction ts with
  | nil => exact List.forall_mem_nil _
  | cons t ts ih =>
      rw [statementTokens] at h
      by_cases hsemi : t.kind = .semicolon
      · rw [if_pos hsemi] at h
        exact List.forall_mem_cons.mpr ⟨hsemi, ih h⟩
      · rw [if_neg hsemi] at h
        obtain ⟨us, hus⟩ := @head?_statementTokens ([] ++ [t]) (by simp) ts
        rw [h] at hus
        cases hus

/-- Behind a single statement there are semicolons only. -/
theorem statementTokens_single {seg ts : List SqlToken} (hseg : seg ≠ [])
    (h : (statementTokens seg ts).length ≤ 1) :
    ∃ us vs, ts = us ++ vs ∧ (∀ t ∈ vs, t.kind = .semicolon) ∧
      statementTokens seg ts = [seg ++ us] := by
  induction ts generalizing seg with
  | nil => exact ⟨[], [], rfl, List.forall_mem_nil _, by simp [statementTokens, hseg]⟩
  | cons t ts ih =>
      rw [statementTokens] at h ⊢
      by_cases hsemi : t.kind = .semicolon
      · rw [if_pos hsemi, if_neg (by simp [hseg])] at h ⊢
        have hnil : statementTokens [] ts = [] := by
          rw [List.length_append, List.length_singleton] at h
          exact List.length_eq_zero_iff.mp (by omega)
        refine ⟨[], t :: ts, rfl, List.forall_mem_cons.mpr ⟨hsemi, semicolons_of_nil hnil⟩, ?_⟩
        rw [hnil, List.append_nil, List.append_nil]
      · rw [if_neg hsemi] at h ⊢
        obtain ⟨us, vs, rfl, hvs, hsingle⟩ := ih (List.append_ne_nil_of_left_ne_nil hseg [t]) h
        exact ⟨t :: us, vs, rfl, hvs, by rw [hsingle, List.append_assoc]; rfl⟩

theorem withMainVerbIsSelect_semicolons {vs : List SqlToken}
    (hvs : ∀ t ∈ vs, t.kind = .semicolon ∧ t.text = [';']) (depth : Nat) :
    withMainVerbIsSelect depth vs = false := by
  induction vs with
  | nil => rfl
  | cons t vs ih =>
      obtain ⟨⟨hkind, htext⟩, hvs⟩ := List.forall_mem_cons.mp hvs
      have hword : t.word? = none := by simp [SqlToken.word?, hkind]
      simp [withMainVerbIsSelect, htext, hword, ih hvs]

/-- Semicolons behind a statement have no part in its main verb. -/
theorem withMainVerbIsSelect_append {vs : List SqlToken}
    (hvs : ∀ t ∈ vs, t.kind = .semicolon ∧ t.text = [';']) (depth : Nat) (us : List SqlToken) :
    withMainVerbIsSelect depth (us ++ vs) = withMainVerbIsSelect depth us := by
  induction us generalizing depth with
  | nil => exact withMainVerbIsSelect_semicolons hvs depth
  | cons t us ih => simp only [List.cons_append, withMainVerbIsSelect, ih]

/-- A text that is a read, and no more than one statement, is a statement that is
a read. -/
theorem isReadStatement_of_single {sql : Text} (hread : isReadStatement (lex sql))
    (hcount : (lex sql).statementCount ≤ 1) :
    ∃ s, statementTokens [] (lex sql).significant = [s] ∧ isReadStatement (.ofTokens s) := by
  obtain ⟨word, hlead, hkind⟩ := isReadStatement_iff.mp hread
  obtain ⟨us, t, hsplit, hopen, hword, ht⟩ := significant_of_leadingWord hlead
  have htokens : statementTokens [] (lex sql).significant =
      statementTokens (us ++ [t]) (lex sql).behindLeading := by
    rw [hsplit, statementTokens_append fun u hu ↦ (hopen u hu).2, List.nil_append,
      statementTokens, if_neg (by simp [(word?_eq_some.mp hword).1])]
  have hlength : (statementTokens (us ++ [t]) (lex sql).behindLeading).length ≤ 1 := by
    rw [← htokens, ← (splitStatements_lexesTo sql).length_eq, length_splitStatements]
    exact hcount
  obtain ⟨body, vs, hbody, hvs, hsingle⟩ := statementTokens_single (by simp) hlength
  rw [List.append_assoc, List.singleton_append] at hsingle
  refine ⟨us ++ t :: body, htokens.trans hsingle, ?_⟩
  have hplain := isTrivia_of_mem_statementTokens
    ((htokens.trans hsingle) ▸ List.mem_singleton_self (us ++ t :: body))
  obtain ⟨hlead', hbehind⟩ := leadingWord_ofTokens hplain (fun u hu ↦ (hopen u hu).1) ht
  refine isReadStatement_iff.mpr ⟨word, hlead'.trans hword, hkind.imp_right ?_⟩
  rintro ⟨hwith, hmain⟩
  have hsemi : ∀ v ∈ vs, v.kind = .semicolon ∧ v.text = [';'] := by
    intro v hv
    have hmem : v ∈ (lex sql).significant := by
      rw [hsplit, hbody]
      simp [hv]
    exact ⟨hvs v hv, text_of_semicolon hmem (hvs v hv)⟩
  rw [hbody, withMainVerbIsSelect_append hsemi] at hmain
  exact ⟨hwith, by rw [hbehind]; exact hmain⟩

/-- The words of a statement are words of the text. -/
theorem readSideEffect_of_mem {sql : Text} {s : List SqlToken}
    (hs : s ∈ statementTokens [] (lex sql).significant)
    (h : readSideEffect (lex sql) = none) : readSideEffect (.ofTokens s) = none := by
  rw [readSideEffect, List.find?_eq_none] at h ⊢
  intro word hword
  obtain ⟨t, ht, htword⟩ := List.mem_filterMap.mp hword
  have hmem := (mem_statementTokens hs t ht).resolve_left (by simp)
  exact h word (List.mem_filterMap.mpr ⟨t, (List.mem_filter.mp hmem).1, htword⟩)

/-! ## What is accepted -/

/-- A statement that the guards of the core take for a read. -/
def PureRead (lexed : SqlLex) : Prop := isReadStatement lexed ∧ readSideEffect lexed = none

theorem PureRead.congr {l l' : SqlLex} (h : l.Alike l') : PureRead l ↔ PureRead l' := by
  rw [PureRead, PureRead, h.isReadStatement, h.readSideEffect]

theorem pureReads_of_single {sql : Text} (hselect : isSelectLike sql)
    (hmultiple : hasMultipleStatements sql = false) :
    splitStatements sql ≠ [] ∧ ∀ st ∈ splitStatements sql, PureRead (lex st) := by
  obtain ⟨-, hread, heffect⟩ := isSelectLike_iff.mp hselect
  have hcount : (lex sql).statementCount ≤ 1 := by
    simp only [hasMultipleStatements, Bool.or_eq_false_iff, decide_eq_false_iff_not, not_lt]
      at hmultiple
    exact hmultiple.1.2
  obtain ⟨s, hs, hreads⟩ := isReadStatement_of_single hread hcount
  constructor
  · intro hnil
    have hlength := (splitStatements_lexesTo sql).length_eq
    rw [hnil, hs] at hlength
    cases hlength
  · rw [forall_splitStatements PureRead.congr, hs, List.forall_mem_singleton]
    exact ⟨hreads, readSideEffect_of_mem (hs ▸ List.mem_singleton_self s) heffect⟩

/-- What a batch passed. -/
theorem pureReads_of_batch {sql : Text} {options : QueryRunOptions}
    (h : batchRefusal sql (splitStatements sql) options = none) :
    splitStatements sql ≠ [] ∧ ∀ st ∈ splitStatements sql, PureRead (lex st) := by
  unfold batchRefusal at h
  split_ifs at h with hbindings hempty
  constructor
  · intro hnil
    exact hempty (.inl (by rw [hnil]; exact Nat.zero_lt_two))
  · intro st hst
    exact (isSelectLike_iff.mp (statementsRefusal_eq_none h st hst)).2

theorem reliable_of_ambiguousSqlReason {sql : Text} (h : ambiguousSqlReason sql = none) :
    (lex sql).isUnreliable = false := by
  unfold ConfirmedWrite.ambiguousSqlReason at h
  split_ifs at h with hunterminated hambiguous
  rw [SqlLex.isUnreliable, Bool.or_eq_false_iff]
  exact ⟨Bool.not_eq_true _ ▸ hunterminated, Bool.not_eq_true _ ▸ hambiguous⟩

theorem not_accepts_refused (error : SnowflakeError) (sql : Text) :
    ¬ (QueryRunStart.refused error).Accepts sql := by
  rintro (⟨_, h⟩ | ⟨_, _, h⟩)
  · cases h
  · cases h

theorem not_accepts_usageError (message : String) (sql : Text) :
    ¬ (QueryRunStart.usageError message).Accepts sql := by
  rintro (⟨_, h⟩ | ⟨_, _, h⟩)
  · cases h
  · cases h

/-- The two ways through the guards. -/
theorem QueryRunStart.Accepts.passed {profile : Option Text} {sql : Text}
    {options : QueryRunOptions} (h : (queryRunOutcome profile (some sql) options).Accepts sql) :
    (lex sql).isUnreliable = false ∧
      ((hasMultipleStatements sql = false ∧ isSelectLike sql) ∨
        batchRefusal sql (splitStatements sql) options = none) := by
  unfold queryRunOutcome at h
  cases profile with
  | none => exact absurd h (not_accepts_usageError _ sql)
  | some profile =>
      cases hreason : ambiguousSqlReason sql with
      | some reason =>
          simp only [hreason] at h
          exact absurd h (not_accepts_refused _ sql)
      | none =>
          refine ⟨reliable_of_ambiguousSqlReason hreason, ?_⟩
          simp only [hreason] at h
          by_cases hmultiple : hasMultipleStatements sql
          · rw [if_pos hmultiple] at h
            by_cases hallowed : options.allowMultipleStatements
            · rw [if_neg (not_not.mpr hallowed)] at h
              cases hbatch : batchRefusal sql (splitStatements sql) options with
              | none => exact .inr rfl
              | some error =>
                  rw [hbatch] at h
                  exact absurd h (not_accepts_refused _ sql)
            · rw [if_pos hallowed] at h
              exact absurd h (not_accepts_refused _ sql)
          · rw [if_neg hmultiple] at h
            cases heffect : readSideEffect (lex sql) with
            | some function =>
                rw [heffect] at h
                exact absurd h (not_accepts_refused _ sql)
            | none =>
                simp only [heffect] at h
                by_cases hselect : isSelectLike sql
                · exact .inl ⟨Bool.not_eq_true _ ▸ hmultiple, hselect⟩
                · rw [if_pos hselect] at h
                  exact absurd h (not_accepts_refused _ sql)

/-- A text that the read path accepts is a list of reads, in the eyes of the core. -/
theorem queryRun_isSideEffectFreeRead (profile : Option Text) (sql : Text)
    (options : QueryRunOptions)
    (h : (queryRunOutcome profile (some sql) options).Accepts sql) :
    isSideEffectFreeRead sql ∧ (splitStatements sql).length = (lex sql).statementCount ∧
      ∀ st ∈ splitStatements sql, isReadStatement (lex st) ∧ readSideEffect (lex st) = none := by
  obtain ⟨hreliable, hguards⟩ := h.passed
  have hreads : splitStatements sql ≠ [] ∧ ∀ st ∈ splitStatements sql, PureRead (lex st) := by
    rcases hguards with ⟨hmultiple, hselect⟩ | hbatch
    · exact pureReads_of_single hselect hmultiple
    · exact pureReads_of_batch hbatch
  obtain ⟨hsome, hpure⟩ := hreads
  refine ⟨?_, length_splitStatements sql, hpure⟩
  rw [isSideEffectFreeRead, hreliable, if_neg Bool.false_ne_true]
  simp only [Bool.and_eq_true, Bool.not_eq_true', List.isEmpty_eq_false_iff, List.all_eq_true,
    Option.isNone_iff_eq_none]
  exact ⟨hsome, hpure⟩

/-- A batch of two reads. -/
theorem queryRun_isSideEffectFreeRead_batch :
    isSideEffectFreeRead "select 1; show tables".toList ∧
      (splitStatements "select 1; show tables".toList).length =
        (lex "select 1; show tables".toList).statementCount ∧
      ∀ st ∈ splitStatements "select 1; show tables".toList,
        isReadStatement (lex st) ∧ readSideEffect (lex st) = none := by
  apply queryRun_isSideEffectFreeRead (some "p".toList) "select 1; show tables".toList
    { allowMultipleStatements := true }
  exact .inr ⟨"p".toList, ["select 1".toList, "show tables".toList], by decide +kernel⟩

end FrankenSnowflake.QueryRun
