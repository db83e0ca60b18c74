import FrankenSnowflake.Core.SqlGuards
import FrankenSnowflake.Foundation.Unicode

/-!
# Query guardrails

A plan is checked and bounded before it is sent.  Whether its SQL is a read is
decided by the first word of the whole text.
-/

namespace FrankenSnowflake.Guardrails

open SqlLexer Foundation

/-! ## Plans and limits -/

inductive MutationPolicy where
  | readOnly
  | writeIntentRequired
deriving DecidableEq, Repr

inductive SqlOperationClass where
  | read
  | mutating
deriving DecidableEq, Repr

/-- The error codes of the guards. -/
inductive SnowflakeErrorCode where
  | usageError
  | mutationRefused
  | multiStatementRefused
  | safetyLimitExceeded
  | warehouseRefused
deriving DecidableEq, Repr

structure SnowflakeError where
  code : SnowflakeErrorCode
  message : String
deriving DecidableEq, Repr

def defaultMaxStatementBytes : Nat := 1000000

def defaultMaxResultRows : Nat := 10000

def defaultMaxResultBytes : Nat := 100 * 1024 * 1024

def defaultStatementTimeoutSeconds : Nat := 300

/-- Enforceable and advisory query guardrails. -/
structure QuerySafetyLimits where
  maxStatementBytes : Nat := defaultMaxStatementBytes
  maxResultRows : Nat := defaultMaxResultRows
  maxResultBytes : Nat := defaultMaxResultBytes
  statementTimeoutSeconds : Nat := defaultStatementTimeoutSeconds
  requireWarehouse : Bool := true
  allowedWarehouses : List (List Char) := []
  mutationPolicy : MutationPolicy := .readOnly
deriving DecidableEq, Repr

/-- What a caller asks for. -/
structure QueryPlanGuard where
  sql : List Char
  statementTimeoutSeconds : Option Nat := none
  resultRowCap : Option Nat := none
  resultByteCap : Option Nat := none
  warehouse : Option (List Char) := none
  exportMode : Bool := false
deriving DecidableEq, Repr

structure GuardrailWarning where
  code : String
  message : String
deriving DecidableEq, Repr

/-- A plan after defaults are applied and policy has accepted it. -/
structure BoundedQueryPlan where
  sql : List Char
  statementTimeoutSeconds : Nat
  resultRowCap : Nat
  resultByteCap : Nat
  warehouse : List Char
  warnings : List GuardrailWarning
deriving DecidableEq, Repr

/-! ## Checks -/

/-- Classify a text enough to enforce read-only by default. -/
def classifySqlOperation (sql : List Char) : SqlOperationClass :=
  let lexed := lex sql
  if lexed.isUnreliable then .mutating
  else
    match lexed.firstWord with
    | none => .read
    | some verb =>
        if isMutatingVerb verb then .mutating
        else if verb = "with".toList ∧ isReadStatement lexed = false then .mutating
        else .read

def constrainingWords : List (List Char) :=
  ["limit", "where", "qualify", "fetch"].map String.toList

def looksUnconstrained (sql : List Char) : Bool :=
  let words := (lex sql).words
  words.any (· = "select".toList) && !words.any (constrainingWords.contains ·)

/-- A cap that the caller asked for, or the limit with a warning. -/
def boundedBy (requested : Option Nat) (limit : Nat) (warnings : List GuardrailWarning) :
    Nat × List GuardrailWarning :=
  match requested with
  | some cap => if 0 < cap then (min cap limit, []) else (limit, warnings)
  | none => (limit, warnings)

/-- Apply the defaults and caps. -/
def boundPlan (plan : QueryPlanGuard) (limits : QuerySafetyLimits) (warehouse : List Char) :
    BoundedQueryPlan :=
  let timeout := boundedBy plan.statementTimeoutSeconds limits.statementTimeoutSeconds
    [⟨"auto_statement_timeout",
      s!"applied STATEMENT_TIMEOUT_IN_SECONDS={limits.statementTimeoutSeconds}"⟩]
  let rows := boundedBy plan.resultRowCap limits.maxResultRows
    (if plan.exportMode then []
      else [⟨"auto_row_cap", s!"applied result row cap {limits.maxResultRows}"⟩])
  let bytes := boundedBy plan.resultByteCap limits.maxResultBytes
    [⟨"auto_byte_cap", s!"applied result byte cap {limits.maxResultBytes}"⟩]
  let unconstrained : List GuardrailWarning :=
    if looksUnconstrained plan.sql then
      [⟨"unconstrained_query", "query appears unconstrained; row and byte caps remain enforced"⟩]
    else []
  { sql := plan.sql
    statementTimeoutSeconds := timeout.1
    resultRowCap := rows.1
    resultByteCap := bytes.1
    warehouse := warehouse
    warnings := timeout.2 ++ rows.2 ++ bytes.2 ++ unconstrained }

/-- A warehouse that is named by more than blanks. -/
def QueryPlanGuard.namedWarehouse (plan : QueryPlanGuard) : Option (List Char) :=
  plan.warehouse.filter fun warehouse ↦ !(Unicode.trim warehouse).isEmpty

def QuerySafetyLimits.allows (limits : QuerySafetyLimits) (warehouse : List Char) : Bool :=
  limits.allowedWarehouses.isEmpty || limits.allowedWarehouses.any fun allowed ↦
    allowed.map Char.toLower = warehouse.map Char.toLower

/-- Apply all query safety defaults and refusals. -/
def enforceQuerySafety (plan : QueryPlanGuard) (limits : QuerySafetyLimits) :
    Except SnowflakeError BoundedQueryPlan :=
  if limits.maxStatementBytes < utf8Len plan.sql then
    .error ⟨.safetyLimitExceeded,
      s!"statement is {utf8Len plan.sql} bytes; max_statement_bytes is {limits.maxStatementBytes}"⟩
  else if classifySqlOperation plan.sql = .mutating ∧ limits.mutationPolicy = .readOnly then
    .error ⟨.mutationRefused,
      "mutating SQL is disabled by default; use the future write-intent ladder"⟩
  else if plan.namedWarehouse = none ∧ limits.requireWarehouse then
    .error ⟨.warehouseRefused, "warehouse is required for cost attribution and guardrails"⟩
  else if ¬ limits.allows (plan.namedWarehouse.getD []) then
    .error ⟨.warehouseRefused, "warehouse is not in the profile allowlist"⟩
  else .ok (boundPlan plan limits (plan.namedWarehouse.getD []))

theorem boundedBy_le (requested : Option Nat) (limit : Nat) (warnings : List GuardrailWarning) :
    (boundedBy requested limit warnings).1 ≤ limit := by
  unfold boundedBy
  split
  · split_ifs
    · exact min_le_right _ _
    · exact le_refl limit
  · exact le_refl limit

/-- What an accepted plan passed. -/
structure Accepted (plan : QueryPlanGuard) (limits : QuerySafetyLimits)
    (bounded : BoundedQueryPlan) : Prop where
  size : utf8Len plan.sql ≤ limits.maxStatementBytes
  operation : limits.mutationPolicy = .readOnly → classifySqlOperation plan.sql = .read
  sql : bounded.sql = plan.sql
  timeout : bounded.statementTimeoutSeconds ≤ limits.statementTimeoutSeconds
  rows : bounded.resultRowCap ≤ limits.maxResultRows
  bytes : bounded.resultByteCap ≤ limits.maxResultBytes
  warehouse : limits.requireWarehouse → (Unicode.trim bounded.warehouse).isEmpty = false

variable {plan : QueryPlanGuard} {limits : QuerySafetyLimits} {bounded : BoundedQueryPlan}

theorem accepted_of_ok (h : enforceQuerySafety plan limits = .ok bounded) :
    Accepted plan limits bounded := by
  unfold enforceQuerySafety at h
  split_ifs at h with hsize hmutating hwarehouse hallowed
  obtain rfl := Except.ok.inj h
  refine
    { size := not_lt.mp hsize
      operation := ?_
      sql := rfl
      timeout := boundedBy_le _ _ _
      rows := boundedBy_le _ _ _
      bytes := boundedBy_le _ _ _
      warehouse := ?_ }
  · intro hpolicy
    cases hclass : classifySqlOperation plan.sql with
    | read => rfl
    | mutating => exact absurd ⟨hclass, hpolicy⟩ hmutating
  · intro hrequired
    cases hnamed : plan.namedWarehouse with
    | none => exact absurd ⟨hnamed, hrequired⟩ hwarehouse
    | some warehouse =>
        have hfilter := (Option.filter_eq_some_iff.mp hnamed).2
        simpa [boundPlan] using hfilter

/-! ## What read-only promises -/

def IsKnownVerb (word : List Char) : Prop :=
  word ∈ readVerbs ∨ isMutatingVerb word ∨ word = "with".toList

instance (word : List Char) : Decidable (IsKnownVerb word) :=
  inferInstanceAs (Decidable (_ ∨ _ ∨ _))

/-- A statement whose first word is a known verb is a read. -/
def ReadIfKnown (lexed : SqlLex) : Prop :=
  ∀ word ∈ lexed.firstWord, IsKnownVerb word → isReadStatement lexed

/-- No statement begins with a mutating verb, and none is a `WITH` with another
main verb than `SELECT`. -/
structure OnlyReads (sql : List Char) : Prop where
  verb : ∀ st ∈ splitStatements sql, ∀ word ∈ (lex st).leadingWord, isMutatingVerb word = false
  main : ∀ st ∈ splitStatements sql, (lex st).leadingWord = some "with".toList →
    withMainVerbIsSelect 0 (lex st).behindLeading
  known : ∀ st ∈ splitStatements sql, ReadIfKnown (lex st)

theorem ReadIfKnown.congr {l l' : SqlLex} (h : l.Alike l') : ReadIfKnown l ↔ ReadIfKnown l' := by
  rw [ReadIfKnown, ReadIfKnown, h.firstWord, h.isReadStatement]

/-- The promise about known verbs is all of it. -/
theorem onlyReads_of_known {sql : List Char}
    (h : ∀ st ∈ splitStatements sql, ReadIfKnown (lex st)) : OnlyReads sql where
  known := h
  verb st hst word hword := by
    have hfirst := firstWord_of_leadingWord (fun _ ↦ ne_paren_of_mem_significant) hword
    rw [Bool.eq_false_iff]
    intro hmutating
    have hread := h st hst word hfirst (.inr (.inl hmutating))
    rw [isReadStatement_of_mutating hword hmutating] at hread
    cases hread
  main st hst hword := by
    have hfirst := firstWord_of_leadingWord (fun _ ↦ ne_paren_of_mem_significant) hword
    obtain ⟨word, hlead, hkind⟩ :=
      isReadStatement_iff.mp (h st hst _ hfirst (.inr (.inr rfl)))
    obtain rfl := Option.some.inj (hword.symm.trans hlead)
    exact (hkind.resolve_left with_not_mem_readVerbs).2

/-! ## Where the first word decides

Only the first word of the text is classified.  That covers the statement it
stands in, but for symbols before a read verb and for a `WITH` that ends before
its main verb, and it covers no other statement. -/

theorem head?_dropWhile_bind {α β : Type} (f : α → Option β) (ss : List α) :
    ((ss.dropWhile fun s ↦ (f s).isNone).head?).bind f = ss.findSome? f := by
  induction ss with
  | nil => rfl
  | cons s ss ih =>
      cases hs : f s with
      | none => rw [List.dropWhile_cons_of_pos (by simp [hs]), List.findSome?_cons_of_isNone (by simp [hs]), ih]
      | some b => simp [hs]

/-- The statements from the one with the first word on, as tokens. -/
def fromFirstWord (sql : List Char) : List (List SqlToken) :=
  (statementTokens [] (lex sql).significant).dropWhile fun s ↦ (s.findSome? SqlToken.word?).isNone

theorem findSome?_statementTokens (seg ts : List SqlToken) :
    (statementTokens seg ts).findSome? (fun s ↦ s.findSome? SqlToken.word?) =
      (seg ++ ts).findSome? SqlToken.word? := by
  have hlast (seg : List SqlToken) :
      (if seg.isEmpty then [] else [seg]).findSome? (fun s ↦ s.findSome? SqlToken.word?) =
        seg.findSome? SqlToken.word? := by
    cases seg with
    | nil => rfl
    | cons t ts => simp
  induction ts generalizing seg with
  | nil => rw [statementTokens, hlast, List.append_nil]
  | cons t ts ih =>
      rw [statementTokens]
      by_cases hsemi : t.kind = .semicolon
      · have hword : t.word? = none := by simp [SqlToken.word?, hsemi]
        rw [if_pos hsemi, List.findSome?_append, hlast, ih]
        simp [hword]
      · rw [if_neg hsemi, ih, List.append_assoc]
        rfl

theorem firstWord_fromFirstWord (sql : List Char) :
    (fromFirstWord sql).head?.bind (fun s ↦ s.findSome? SqlToken.word?) = (lex sql).firstWord := by
  rw [fromFirstWord, head?_dropWhile_bind fun s : List SqlToken ↦ s.findSome? SqlToken.word?,
    findSome?_statementTokens]
  rfl

/-- The statement with the first word is covered, and all others are reads if
they have a known verb. -/
structure GuardSuffices (sql : List Char) : Prop where
  lead : ∀ s ∈ (fromFirstWord sql).head?, ∀ word ∈ (SqlLex.ofTokens s).firstWord,
    word ∈ readVerbs → (SqlLex.ofTokens s).leadingWord = some word
  main : ∀ s ∈ (fromFirstWord sql).head?, (SqlLex.ofTokens s).firstWord = some "with".toList →
    withMainVerbIsSelect 0 (SqlLex.ofTokens s).behindLeading
  others : ∀ s ∈ (fromFirstWord sql).tail, ReadIfKnown (SqlLex.ofTokens s)

theorem mem_of_mem_fromFirstWord {sql : List Char} {s : List SqlToken}
    (h : s ∈ fromFirstWord sql) : s ∈ statementTokens [] (lex sql).significant :=
  (List.dropWhile_sublist _).subset h

/-- A text that is accepted for its `WITH` begins its first statement with it. -/
theorem leadingWord_of_isReadStatement {sql : List Char} {s : List SqlToken}
    (hs : s ∈ (fromFirstWord sql).head?) (hread : isReadStatement (lex sql))
    (hfirst : (lex sql).firstWord = some "with".toList) :
    (SqlLex.ofTokens s).leadingWord = some "with".toList := by
  obtain ⟨word, hlead, -⟩ := isReadStatement_iff.mp hread
  have hword : word = "with".toList := by
    have hsame := firstWord_of_leadingWord (fun _ ↦ ne_paren_of_mem_significant) hlead
    exact Option.some.inj (hsame.symm.trans hfirst)
  subst hword
  -- the text starts with parentheses and the word, and so does its first statement
  obtain ⟨us, t, hsplit, hopen, hword, ht⟩ := significant_of_leadingWord hlead
  have htkind := (word?_eq_some.mp hword).1
  obtain ⟨vs, hvs⟩ := @head?_statementTokens (us ++ [t]) (by simp) (lex sql).behindLeading
  have hhead : (statementTokens [] (lex sql).significant).head? = some (us ++ t :: vs) := by
    rw [hsplit, statementTokens_append fun u hu ↦ (hopen u hu).2, List.nil_append,
      statementTokens, if_neg (by simp [htkind]), hvs, List.append_assoc]
    rfl
  obtain ⟨rest, hrest⟩ := List.head?_eq_some_iff.mp hhead
  have hsome : (us ++ t :: vs).findSome? SqlToken.word? ≠ none := by
    intro hnone
    have hall := List.findSome?_eq_none_iff.mp hnone t (by simp)
    rw [hword] at hall
    cases hall
  have hfrom : (fromFirstWord sql).head? = some (us ++ t :: vs) := by
    rw [fromFirstWord, hrest, List.dropWhile_cons_of_neg (by simpa using hsome)]
    rfl
  obtain rfl := Option.some.inj (hfrom.symm.trans hs)
  have hplain := isTrivia_of_mem_statementTokens (List.mem_of_mem_head? hhead)
  rw [(leadingWord_ofTokens hplain (fun u hu ↦ (hopen u hu).1) ht).1, hword]

theorem of_classify_read {sql word : List Char} (hclass : classifySqlOperation sql = .read)
    (hfirst : (lex sql).firstWord = some word) :
    isMutatingVerb word = false ∧ (word = "with".toList → isReadStatement (lex sql)) := by
  unfold classifySqlOperation at hclass
  simp only [hfirst] at hclass
  split_ifs at hclass with hunreliable hmutating hwith
  refine ⟨Bool.not_eq_true _ ▸ hmutating, fun hword ↦ ?_⟩
  exact Bool.not_eq_false _ ▸ fun hread ↦ hwith ⟨hword, hread⟩

/-- The statement with the first word is a read, if its verb is known, exactly
where the guard covers it. -/
theorem readIfKnown_iff_of_head {sql : List Char} {s : List SqlToken}
    (hclass : classifySqlOperation sql = .read) (hs : s ∈ (fromFirstWord sql).head?) :
    ReadIfKnown (.ofTokens s) ↔
      (∀ word ∈ (SqlLex.ofTokens s).firstWord,
        word ∈ readVerbs → (SqlLex.ofTokens s).leadingWord = some word) ∧
      ((SqlLex.ofTokens s).firstWord = some "with".toList →
        withMainVerbIsSelect 0 (SqlLex.ofTokens s).behindLeading) := by
  have hplain := isTrivia_of_mem_statementTokens
    (mem_of_mem_fromFirstWord (List.mem_of_mem_head? hs))
  have hparen : ∀ t ∈ (SqlLex.ofTokens s).significant, t.kind = .word → t.text ≠ ['('] := by
    intro t ht
    rw [significant_ofTokens hplain] at ht
    have hmem := mem_of_mem_fromFirstWord (List.mem_of_mem_head? hs)
    exact ne_paren_of_mem_significant ((mem_statementTokens hmem t ht).resolve_left (by simp))
  have hwhole : (SqlLex.ofTokens s).firstWord = (lex sql).firstWord := by
    rw [firstWord_ofTokens hplain, ← firstWord_fromFirstWord, Option.mem_def.mp hs]
    rfl
  unfold ReadIfKnown
  rw [hwhole]
  cases hfirst : (lex sql).firstWord with
  | none => simp
  | some word =>
      obtain ⟨hmutating, hwith⟩ := of_classify_read hclass hfirst
      simp only [Option.mem_def, Option.some.injEq, forall_eq']
      by_cases hread : word ∈ readVerbs
      · have hne : word ≠ "with".toList := by
          rintro rfl
          exact with_not_mem_readVerbs hread
        have hlead : isReadStatement (.ofTokens s) ↔
            (SqlLex.ofTokens s).leadingWord = some word := by
          rw [isReadStatement_iff]
          constructor
          · rintro ⟨other, hother, -⟩
            have hsame := firstWord_of_leadingWord hparen hother
            rw [hwhole, hfirst] at hsame
            exact hother.trans hsame.symm
          · exact fun h ↦ ⟨word, h, .inl hread⟩
        simp only [IsKnownVerb, hread, true_or, forall_const, hlead, hne, false_imp_iff, and_true]
      · by_cases hword : word = "with".toList
        · have hbegin := leadingWord_of_isReadStatement hs (hwith hword) (by rw [hfirst, hword])
          have hmain : isReadStatement (.ofTokens s) ↔
              withMainVerbIsSelect 0 (SqlLex.ofTokens s).behindLeading := by
            rw [isReadStatement_iff, hbegin]
            simp only [Option.mem_def, Option.some.injEq, exists_eq_left', with_not_mem_readVerbs,
              false_or, true_and]
          simp only [IsKnownVerb, hword, or_true, forall_const, hmain, with_not_mem_readVerbs,
            false_imp_iff, true_and]
        · simp only [IsKnownVerb, hread, hword, hmutating, Bool.false_eq_true, or_self,
            false_imp_iff, and_self]

/-- What the guard accepts is read-only exactly where its look at the first word
suffices. -/
theorem onlyReads_iff {sql : List Char} (hclass : classifySqlOperation sql = .read) :
    OnlyReads sql ↔ GuardSuffices sql := by
  have hknown : OnlyReads sql ↔
      ∀ s ∈ statementTokens [] (lex sql).significant, ReadIfKnown (.ofTokens s) := by
    rw [← forall_splitStatements ReadIfKnown.congr]
    exact ⟨OnlyReads.known, onlyReads_of_known⟩
  have hfrom : (∀ s ∈ statementTokens [] (lex sql).significant, ReadIfKnown (.ofTokens s)) ↔
      ∀ s ∈ fromFirstWord sql, ReadIfKnown (.ofTokens s) := by
    refine ⟨fun h s hs ↦ h s (mem_of_mem_fromFirstWord hs), fun h s hs ↦ ?_⟩
    have hsplit := List.takeWhile_append_dropWhile
      (p := fun s : List SqlToken ↦ (s.findSome? SqlToken.word?).isNone)
      (l := statementTokens [] (lex sql).significant)
    rw [← hsplit] at hs
    rcases List.mem_append.mp hs with hmem | hmem
    · have hnone := List.mem_takeWhile_imp hmem
      intro word hword
      rw [firstWord_ofTokens (isTrivia_of_mem_statementTokens (hsplit ▸ hs)),
        Option.isNone_iff_eq_none.mp hnone] at hword
      cases hword
    · exact h s hmem
  rw [hknown, hfrom]
  cases hstatements : fromFirstWord sql with
  | nil =>
      refine iff_of_true (List.forall_mem_nil _) ⟨?_, ?_, ?_⟩
      · simp [hstatements]
      · simp [hstatements]
      · simp [hstatements]
  | cons s rest =>
      have hs : s ∈ (fromFirstWord sql).head? := by rw [hstatements]; rfl
      rw [List.forall_mem_cons, readIfKnown_iff_of_head hclass hs]
      constructor
      · rintro ⟨⟨hlead, hmain⟩, hothers⟩
        refine ⟨?_, ?_, ?_⟩
        · simpa [hstatements] using hlead
        · simpa [hstatements] using hmain
        · simpa [hstatements] using hothers
      · rintro ⟨hlead, hmain, hothers⟩
        rw [hstatements] at hlead hmain hothers
        exact ⟨⟨hlead s rfl, hmain s rfl⟩, hothers⟩

/-- An accepted plan holds reads only where the look at the first word suffices. -/
theorem enforceQuerySafety_onlyReads_iff (plan : QueryPlanGuard) (limits : QuerySafetyLimits)
    (bounded : BoundedQueryPlan) (hpolicy : limits.mutationPolicy = .readOnly)
    (hok : enforceQuerySafety plan limits = .ok bounded) :
    OnlyReads plan.sql ↔ GuardSuffices plan.sql :=
  onlyReads_iff ((accepted_of_ok hok).operation hpolicy)

/-- Two statements, of which the second changes data. -/
def readThenDrop : QueryPlanGuard :=
  { sql := "select 1; drop table t".toList, warehouse := some "wh".toList }

theorem enforceQuerySafety_onlyReads_iff_readThenDrop :
    OnlyReads readThenDrop.sql ↔ GuardSuffices readThenDrop.sql :=
  enforceQuerySafety_onlyReads_iff readThenDrop {} (boundPlan readThenDrop {} "wh".toList) rfl
    (by decide +kernel)

theorem not_enforceQuerySafety_onlyReads :
    ¬ ∀ (plan : QueryPlanGuard) (limits : QuerySafetyLimits) (bounded : BoundedQueryPlan),
      limits.mutationPolicy = .readOnly → enforceQuerySafety plan limits = .ok bounded →
        OnlyReads plan.sql := by
  intro h
  have hreads := h readThenDrop {} (boundPlan readThenDrop {} "wh".toList) rfl (by decide +kernel)
  have hdrop := hreads.verb "drop table t".toList (by decide +kernel) "drop".toList
    (by decide +kernel)
  revert hdrop
  decide

end FrankenSnowflake.Guardrails
