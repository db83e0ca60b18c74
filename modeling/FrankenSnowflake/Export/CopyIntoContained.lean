import FrankenSnowflake.Export.CopyInto
import FrankenSnowflake.Foundation.Fallible

/-!
# Contained sources

A plan is lexed apart at its two parentheses, so its source stays inside of them if
and only if the location has no `//` and the lexer takes the source as one whole.
-/

namespace FrankenSnowflake.Export

open Foundation Foundation.Unicode SqlLexer Redact

/-! ## What a plan writes by itself -/

theorem isSafeChar_of_isAlphanum {c : Char} (h : c.isAlphanum = true) : isSafeChar c = true := by
  have hne {d : Char} (hd : d.isAlphanum = false) : c ≠ d := by
    rintro rfl
    rw [h] at hd
    cases hd
  simp [isSafeChar, isPlainChar, h, hne]

theorem safe_unloadOptions (options : CopyIntoOptions) :
    options.unloadOptions.all isSafeChar = true := by
  have hsize : (options.maxFileSize.elim [] fun size ↦
      " MAX_FILE_SIZE = ".toList ++ Nat.toDigits 10 size.toNat).all isSafeChar = true := by
    cases options.maxFileSize with
    | none => rfl
    | some size =>
        rw [Option.elim_some, List.all_append, Bool.and_eq_true]
        refine ⟨by decide, List.all_eq_true.mpr fun c hc ↦ isSafeChar_of_isAlphanum ?_⟩
        rw [Char.isAlphanum, Nat.isDigit_of_mem_toDigits (by decide) (by decide) hc, Bool.or_true]
  simp only [CopyIntoOptions.unloadOptions, List.all_append, Bool.and_eq_true]
  refine ⟨⟨⟨?_, ?_⟩, ?_⟩, hsize⟩
  · split_ifs <;> decide
  · split_ifs <;> decide
  · split_ifs <;> decide

theorem safe_snowflakeSql (compression : CopyCompression) :
    compression.snowflakeSql.all isSafeChar = true := by
  cases compression <;> decide

/-- Nothing is left open, and there is no semicolon. -/
structure Clean (s : List Char) : Prop where
  unterminated : (lex s).unterminated = false
  ambiguous : (lex s).ambiguous = false
  single : ∀ t ∈ tokenContent s, t.1 ≠ .semicolon

theorem Clean.isUnreliable {s : List Char} (h : Clean s) : (lex s).isUnreliable = false := by
  rw [SqlLex.isUnreliable, h.unterminated, h.ambiguous]
  rfl

/-- How a string literal between two safe texts is lexed. -/
theorem lex_literal {before literal after : List Char} (hbefore : before.all isSafeChar = true)
    (hquote : '\'' ∉ literal) (hescape : '\\' ∉ literal) (hafter : after.all isSafeChar = true) :
    Clean (before ++ '\'' :: (literal ++ '\'' :: after)) ∧
      tokenContent (before ++ '\'' :: (literal ++ '\'' :: after)) =
        tokenContent before ++
          (.stringLiteral, '\'' :: (literal ++ ['\''])) :: tokenContent after := by
  obtain ⟨hu, ha, hkinds, hline⟩ := lex_safe hbefore
  obtain ⟨hu', ha', hkinds', -⟩ := lex_safe hafter
  have hhead : after.head? ≠ some '\'' := by
    intro heq
    have hsafe := List.all_eq_true.mp hafter _ (List.mem_of_mem_head? heq)
    exact absurd hsafe (by decide)
  obtain ⟨ht, hlu, hla⟩ := lex_string hquote hescape hhead
  obtain ⟨hs, hsu, hsa⟩ := tokenContent_append ('\'' :: (literal ++ '\'' :: after)) hu hline
    fun t ht ↦ Or.inr ⟨rfl, (hkinds t ht).2⟩
  rw [ht] at hs
  refine ⟨⟨by rw [hsu, hlu, hu'], by rw [hsa, hla, ha, ha', Bool.or_false], fun t ht ↦ ?_⟩, hs⟩
  rw [hs] at ht
  rcases List.mem_append.mp ht with ht | ht
  · exact (hkinds t ht).1
  · rcases List.mem_cons.mp ht with rfl | ht
    · exact nofun
    · exact (hkinds' t ht).1

theorem clean_safe {s : List Char} (h : s.all isSafeChar = true) : Clean s := by
  obtain ⟨hu, ha, hkinds, -⟩ := lex_safe h
  exact ⟨hu, ha, fun t ht ↦ (hkinds t ht).1⟩

theorem safe_append {s t : List Char} (hs : s.all isSafeChar = true) (ht : t.all isSafeChar = true) :
    (s ++ t).all isSafeChar = true := by
  rw [List.all_append, hs, ht, Bool.and_self]

theorem regroup (a b c d e f g u : List Char) :
    a ++ (b ++ c ++ (d ++ '\'' :: (e ++ '\'' :: f))) ++ g ++ u =
      (a ++ (b ++ c ++ d)) ++ '\'' :: (e ++ '\'' :: (f ++ g ++ u)) := by
  simp only [List.append_assoc, List.cons_append]

theorem clean_clauses (options : CopyIntoOptions) : Clean options.clauses := by
  have hunload := safe_unloadOptions options
  have hcompression := safe_snowflakeSql options.compression
  have hopen : " FILE_FORMAT = (".toList.all isSafeChar = true := by decide
  have hclose : ")".toList.all isSafeChar = true := by decide
  cases hformat : options.format with
  | csv =>
      have hnull : " NULL_IF = () EMPTY_FIELD_AS_NULL = FALSE".toList.all isSafeChar = true := by
        decide
      have hclause : options.fileFormatClause = "TYPE = CSV COMPRESSION = ".toList ++
          options.compression.snowflakeSql ++ (" FIELD_OPTIONALLY_ENCLOSED_BY = ".toList ++
            '\'' :: (['"'] ++ '\'' :: " NULL_IF = () EMPTY_FIELD_AS_NULL = FALSE".toList)) := by
        simp only [CopyIntoOptions.fileFormatClause, hformat]
        rfl
      have hclauses : options.clauses = (" FILE_FORMAT = (".toList ++
          ("TYPE = CSV COMPRESSION = ".toList ++ options.compression.snowflakeSql ++
            " FIELD_OPTIONALLY_ENCLOSED_BY = ".toList)) ++ '\'' :: (['"'] ++ '\'' ::
          (" NULL_IF = () EMPTY_FIELD_AS_NULL = FALSE".toList ++ ")".toList ++ options.unloadOptions)) :=
        (congrArg (fun clause ↦ " FILE_FORMAT = (".toList ++ clause ++ ")".toList ++
          options.unloadOptions) hclause).trans (regroup _ _ _ _ _ _ _ _)
      refine (congrArg Clean hclauses).mpr (lex_literal ?_ (by decide) (by decide) ?_).1
      · exact safe_append hopen (safe_append (safe_append (by decide) hcompression) (by decide))
      · exact safe_append (safe_append hnull hclose) hunload
  | jsonl =>
      have hclause : options.fileFormatClause =
          "TYPE = JSON COMPRESSION = ".toList ++ options.compression.snowflakeSql := by
        simp only [CopyIntoOptions.fileFormatClause, hformat]
      have hsafe : options.fileFormatClause.all isSafeChar = true :=
        (congrArg (List.all · isSafeChar) hclause).trans (safe_append (by decide) hcompression)
      exact clean_safe (safe_append (safe_append (safe_append hopen hsafe) hclose) hunload)
  | parquet =>
      have hclause : options.fileFormatClause =
          "TYPE = PARQUET COMPRESSION = ".toList ++ options.compression.snowflakeSql := by
        simp only [CopyIntoOptions.fileFormatClause, hformat]
      have hsafe : options.fileFormatClause.all isSafeChar = true :=
        (congrArg (List.all · isSafeChar) hclause).trans (safe_append (by decide) hcompression)
      exact clean_safe (safe_append (safe_append (safe_append hopen hsafe) hclose) hunload)

/-! ## What is written in front of the source -/

theorem copyLocationSql_eq_ok {location sql : List Char} (h : copyLocationSql location = .ok sql) :
    sql = location ∧ location.all isCopyLocationByte = true ∧ ¬ ['-', '-'] <:+: location := by
  unfold copyLocationSql at h
  dsimp only at h
  split_ifs at h with _ _ _ _ hbytes hdash
  exact ⟨(Except.ok.inj h).symm, by simpa using hbytes, hdash⟩

/-- `COPY INTO` with its target. -/
def target (location : List Char) : List Char :=
  "COPY INTO ".toList ++ location ++ " FROM ".toList

theorem infix_append_pair {c d : Char} {us ts : List Char} (hd : d ∉ ts) :
    [c, d] <:+: us ++ ts ↔ [c, d] <:+: us := by
  induction us with
  | nil =>
      refine iff_of_false (fun h ↦ hd (h.subset (by simp))) fun h ↦ ?_
      cases List.eq_nil_of_infix_nil h
  | cons u us ih =>
      rw [List.cons_append, List.infix_cons_iff, List.infix_cons_iff, ih, List.cons_prefix_cons,
        List.cons_prefix_cons]
      refine or_congr_left (and_congr_right fun _ ↦ ?_)
      cases us with
      | nil =>
          refine iff_of_false (fun h ↦ hd ?_) (by simp)
          exact h.subset List.mem_cons_self
      | cons v us => rw [List.cons_append, List.cons_prefix_cons, List.cons_prefix_cons]; simp

theorem lex_target {location : List Char} (hbytes : location.all isCopyLocationByte = true)
    (hdash : ¬ ['-', '-'] <:+: location) :
    Clean (target location) ∧ (endsInLineComment (target location) = true ↔
      ['/', '/'] <:+: location) := by
  have hlocation : ∀ c ∈ location, isPlainChar c = true ∧ c ≠ '*' := fun c hc ↦ by
    have hbyte := List.all_eq_true.mp hbytes c hc
    rw [isCopyLocationByte, Bool.or_eq_true] at hbyte
    refine ⟨?_, ?_⟩
    · rcases hbyte with hbyte | hbyte
      · simp only [List.contains_iff_mem, List.mem_cons, List.not_mem_nil, or_false] at hbyte
        rcases hbyte with rfl | rfl | rfl | rfl | rfl | rfl | rfl <;> decide
      · rw [isPlainChar, hbyte, Bool.true_or]
    · rintro rfl
      exact absurd hbyte (by decide)
  have hall : ("COPY INTO ".toList ++ " FROM ".toList).all
      (fun c ↦ isPlainChar c && c ≠ '*' && c ≠ '-' && c ≠ '/') = true := by decide
  have hother : ∀ c ∈ "COPY INTO ".toList ++ " FROM ".toList,
      isPlainChar c = true ∧ c ≠ '*' ∧ c ≠ '-' ∧ c ≠ '/' := fun c hc ↦ by
    simpa [and_assoc] using List.all_eq_true.mp hall c hc
  have hpair {c : Char} (hc : c ∉ "COPY INTO ".toList ++ " FROM ".toList) (cs : List Char)
      (hcs : cs = [c, c]) : cs <:+: target location ↔ cs <:+: location := by
    subst hcs
    obtain ⟨hbefore, hafter⟩ := not_or.mp (mt List.mem_append.mpr hc)
    exact (infix_append_pair hafter).trans (infix_append_iff hbefore _)
  have hmem : ∀ c ∈ target location,
      c ∈ location ∨ c ∈ "COPY INTO ".toList ++ " FROM ".toList := fun c hc ↦ by
    rcases List.mem_append.mp hc with hc | hc
    · rcases List.mem_append.mp hc with hc | hc
      · exact Or.inr (List.mem_append_left _ hc)
      · exact Or.inl hc
    · exact Or.inr (List.mem_append_right _ hc)
  have hplain : ∀ c ∈ target location, isPlainChar c = true := fun c hc ↦ by
    rcases hmem c hc with hc | hc
    · exact (hlocation c hc).1
    · exact (hother c hc).1
  have hstar : ¬ ['/', '*'] <:+: target location := fun hfactor ↦ by
    rcases hmem '*' (hfactor.subset (by simp)) with hc | hc
    · exact (hlocation _ hc).2 rfl
    · exact (hother _ hc).2.1 rfl
  have hnodash : ¬ ['-', '-'] <:+: target location := by
    rwa [hpair (fun hc ↦ (hother _ hc).2.2.1 rfl) _ rfl]
  obtain ⟨hu, ha, hkinds, hline⟩ := lex_plain hplain hnodash hstar
  refine ⟨⟨hu, ha, fun t ht ↦ (hkinds t ht).1⟩, hline.trans (hpair ?_ _ rfl)⟩
  exact fun hc ↦ (hother _ hc).2.2.2 rfl

/-! ## Apart at the parentheses -/

section Enclosed

variable {before source after : List Char}

/-- How a text is lexed around a source that the lexer takes as one whole. -/
theorem lex_enclosed (after : List Char) (hbefore : Clean before) (hended : endsInLineComment before = false)
    (hclosed : (lex source).unterminated = false) (hline : endsInLineComment source = false) :
    tokenContent (before ++ '(' :: (source ++ ')' :: after)) = tokenContent before ++
        (.symbol, ['(']) :: (tokenContent source ++ (.symbol, [')']) :: tokenContent after) ∧
      (lex (before ++ '(' :: (source ++ ')' :: after))).unterminated = (lex after).unterminated ∧
      (lex (before ++ '(' :: (source ++ ')' :: after))).ambiguous =
        ((lex source).ambiguous || (lex after).ambiguous) := by
  obtain ⟨hs, hu, ha⟩ := tokenContent_append ('(' :: (source ++ ')' :: after))
    hbefore.unterminated hended fun _ _ ↦ Or.inl (Or.inl rfl)
  obtain ⟨hs', hu', ha'⟩ := tokenContent_append (')' :: after) hclosed hline
    fun _ _ ↦ Or.inl (Or.inr rfl)
  obtain ⟨hopen, hopenu, hopena⟩ := lex_paren (Or.inl rfl) (source ++ ')' :: after)
  obtain ⟨hclose, hcloseu, hclosea⟩ := lex_paren (Or.inr rfl) after
  refine ⟨?_, ?_, ?_⟩
  · rw [hs, hopen, hs', hclose]
  · rw [hu, hopenu, hu', hcloseu]
  · rw [ha, hbefore.ambiguous, Bool.false_or, hopena, ha', hclosea]

/-- The first parenthesis is a token, and what is behind it is lexed by itself. -/
theorem tokens_of_enclosed (hbefore : Clean before) {ts us : List (SqlTokenKind × List Char)}
    (htokens : tokenContent (before ++ '(' :: (source ++ ')' :: after)) = ts ++ us)
    (htext : textOf ts = before) :
    endsInLineComment before = false ∧ ts = tokenContent before ∧
      us = (.symbol, ['(']) :: tokenContent (source ++ ')' :: after) := by
  have hended : endsInLineComment before = false := by
    refine Bool.eq_false_iff.mpr fun htrue ↦ ?_
    exact tokenContent_overrun (Or.inr htrue) (Or.inl rfl) ts us htokens htext
  obtain ⟨hs, -, -⟩ := tokenContent_append ('(' :: (source ++ ')' :: after))
    hbefore.unterminated hended fun _ _ ↦ Or.inl (Or.inl rfl)
  rw [(lex_paren (Or.inl rfl) _).1] at hs
  obtain ⟨hts, hus⟩ := eq_of_flatten (htokens.symm.trans hs)
    (htext.trans (flatten_tokenContent before).symm)
    fun t ht ↦ ne_nil_of_mem_tokenContent (htokens ▸ ht)
  exact ⟨hended, hts, hus⟩

/-- A source whose tokens lie between the two parentheses is lexed as one whole. -/
theorem selfContained_of_enclosed (hbefore : Clean before)
    (hreliable : (lex (before ++ '(' :: (source ++ ')' :: after))).isUnreliable = false)
    (hsingle : (lex (before ++ '(' :: (source ++ ')' :: after))).statementCount = 1)
    {ts us vs : List (SqlTokenKind × List Char)}
    (htokens : tokenContent (before ++ '(' :: (source ++ ')' :: after)) =
      ts ++ (.symbol, ['(']) :: (us ++ (.symbol, [')']) :: vs))
    (htarget : textOf ts = before) (hsource : textOf us = source)
    (hbalanced : parenDepth 0 us = some 0) :
    endsInLineComment before = false ∧ SelfContained source := by
  obtain ⟨hended, -, hrest⟩ := tokens_of_enclosed hbefore htokens htarget
  have hinside := (List.cons.inj hrest).2
  have hopen : ¬ ((lex source).unterminated = true ∨ endsInLineComment source = true) := fun h ↦
    tokenContent_overrun h (Or.inr rfl) us _ hinside.symm hsource
  obtain ⟨hclosed, hline⟩ := not_or.mp hopen
  rw [Bool.not_eq_true] at hclosed hline
  obtain ⟨hs, -, ha⟩ := lex_enclosed after hbefore hended hclosed hline
  obtain ⟨hs', -, -⟩ := tokenContent_append (')' :: after) hclosed hline
    fun _ _ ↦ Or.inl (Or.inr rfl)
  obtain ⟨hus, -⟩ := eq_of_flatten (hinside.trans hs')
    (hsource.trans (flatten_tokenContent source).symm)
    fun t ht ↦ ne_nil_of_mem_tokenContent (hinside ▸ ht)
  rw [SqlLex.isUnreliable, Bool.or_eq_false_iff, ha, Bool.or_eq_false_iff] at hreliable
  refine ⟨hended, ?_, fun t ht ↦ ?_, hus ▸ hbalanced, hline⟩
  · rw [SqlLex.isUnreliable, hclosed, hreliable.2.1]
    rfl
  · obtain ⟨as, bs, hsplit⟩ := List.append_of_mem ht
    have htokens' : tokenContent (before ++ '(' :: (source ++ ')' :: after)) =
        (tokenContent before ++ (.symbol, ['(']) :: as) ++
          t :: (bs ++ (.symbol, [')']) :: tokenContent after) := by
      rw [hs, hsplit]
      simp only [List.append_assoc, List.cons_append]
    have hsymbol : SqlTokenKind.symbol ≠ .semicolon := by decide
    refine ne_semicolon_of_statementCount hsingle htokens' ⟨(.symbol, ['(']), ?_, rfl, hsymbol⟩
      ⟨(.symbol, [')']), ?_, rfl, hsymbol⟩
    · exact List.mem_append_right _ List.mem_cons_self
    · exact List.mem_append_right _ List.mem_cons_self

/-- A source that the lexer takes as one whole stays between the two parentheses. -/
theorem enclosed_of_selfContained (hbefore : Clean before) (hafter : Clean after)
    (hended : endsInLineComment before = false) (hsource : SelfContained source) :
    (lex (before ++ '(' :: (source ++ ')' :: after))).isUnreliable = false ∧
      (lex (before ++ '(' :: (source ++ ')' :: after))).statementCount = 1 ∧
      tokenContent (before ++ '(' :: (source ++ ')' :: after)) = tokenContent before ++
        (.symbol, ['(']) :: (tokenContent source ++ (.symbol, [')']) :: tokenContent after) := by
  have hsymbol : SqlTokenKind.symbol ≠ .semicolon := by decide
  obtain ⟨hclosed, hambiguous⟩ := Bool.or_eq_false_iff.mp hsource.reliable
  obtain ⟨hs, hu, ha⟩ := lex_enclosed after hbefore hended hclosed hsource.ended
  refine ⟨?_, statementCount_eq_one (fun t ht ↦ ?_) ⟨(.symbol, ['(']), ?_, rfl⟩, hs⟩
  · rw [SqlLex.isUnreliable, hu, ha, hafter.unterminated, hafter.ambiguous, hambiguous]
    rfl
  · rw [hs] at ht
    rcases List.mem_append.mp ht with ht | ht
    · exact hbefore.single t ht
    · rcases List.mem_cons.mp ht with rfl | ht
      · exact hsymbol
      · rcases List.mem_append.mp ht with ht | ht
        · exact hsource.single t ht
        · rcases List.mem_cons.mp ht with rfl | ht
          · exact hsymbol
          · exact hafter.single t ht
  · rw [hs]
    exact List.mem_append_right _ List.mem_cons_self

end Enclosed

/-! ## Plans -/

theorem parenDepth_append (depth : Nat) (ts us : List (SqlTokenKind × List Char)) :
    parenDepth depth (ts ++ us) = (parenDepth depth ts).bind (parenDepth · us) := by
  induction ts generalizing depth with
  | nil => rfl
  | cons t ts ih =>
      rw [List.cons_append, parenDepth, parenDepth, ih, ih, ih]
      split_ifs <;> rfl

theorem sqlStringLiteral_of_all {queryId : List Char}
    (h : queryId.all isResultScanQueryIdByte = true) :
    sqlStringLiteral queryId = '\'' :: (queryId ++ ['\'']) ∧ '\'' ∉ queryId ∧ '\\' ∉ queryId := by
  have hall := List.all_eq_true.mp h
  have hquote : '\'' ∉ queryId := fun hmem ↦ absurd (hall _ hmem) (by decide)
  have hescape : '\\' ∉ queryId := fun hmem ↦ absurd (hall _ hmem) (by decide)
  refine ⟨?_, hquote, hescape⟩
  have hflat : queryId.flatMap (fun c ↦
      if c = '\'' then ['\'', '\''] else if c = '\\' then ['\\', '\\'] else [c]) =
        queryId.flatMap fun c ↦ [c] := by
    refine List.flatMap_congr fun c hc ↦ ?_
    have hne : c ≠ '\'' := fun heq ↦ hquote (heq ▸ hc)
    have hne' : c ≠ '\\' := fun heq ↦ hescape (heq ▸ hc)
    rw [if_neg hne, if_neg hne']
  rw [sqlStringLiteral, hflat, List.flatMap_singleton']
  rfl

theorem selfContained_resultScan {queryId : List Char}
    (h : queryId.all isResultScanQueryIdByte = true) :
    SelfContained ("SELECT * FROM TABLE(RESULT_SCAN(".toList ++ sqlStringLiteral queryId ++
      "))".toList) := by
  obtain ⟨hliteral, hquote, hescape⟩ := sqlStringLiteral_of_all h
  have hbefore : "SELECT * FROM TABLE(RESULT_SCAN(".toList.all isSafeChar = true := by decide
  have hafter : "))".toList.all isSafeChar = true := by decide
  have hdepth : parenDepth 0 (tokenContent "SELECT * FROM TABLE(RESULT_SCAN(".toList) = some 2 := by
    decide +kernel
  have hdepth' : parenDepth 2 (tokenContent "))".toList) = some 0 := by decide +kernel
  have hended : (tokenContent "))".toList).getLast? = some (.symbol, [')']) := by decide +kernel
  rw [hliteral]
  generalize "SELECT * FROM TABLE(RESULT_SCAN(".toList = before at hbefore hdepth ⊢
  generalize "))".toList = after at hafter hdepth' hended ⊢
  obtain ⟨hclean, htokens⟩ := lex_literal hbefore hquote hescape hafter
  have htext : before ++ '\'' :: (queryId ++ ['\'']) ++ after =
      before ++ '\'' :: (queryId ++ '\'' :: after) := by
    simp only [List.append_assoc, List.cons_append, List.nil_append]
  rw [htext]
  refine ⟨hclean.isUnreliable, hclean.single, ?_, ?_⟩
  · rw [htokens, parenDepth_append, hdepth, Option.bind_some, parenDepth, if_neg nofun, if_neg nofun,
      hdepth']
  · have hne : tokenContent after ≠ [] := by
      intro hnil
      rw [hnil] at hended
      cases hended
    rw [endsInLineComment, htokens, List.getLast?_append_of_ne_nil _ (List.cons_ne_nil _ _),
      List.getLast?_cons_of_ne_nil hne, hended]
    rfl

theorem toSql_eq_ok {plan : CopyIntoPlan} {sql : List Char} (h : plan.toSql = .ok sql) :
    ∃ sourceSql, plan.source.toSql = .ok sourceSql ∧
      plan.location.all isCopyLocationByte = true ∧ ¬ ['-', '-'] <:+: plan.location ∧
      sql = target plan.location ++ '(' :: (sourceSql ++ ')' :: plan.options.clauses) := by
  obtain ⟨locationSql, hlocation, hrest⟩ := bind_eq_ok_iff.mp h
  obtain ⟨sourceSql, hsource, hsql⟩ := bind_eq_ok_iff.mp hrest
  obtain ⟨rfl, hbytes, hdash⟩ := copyLocationSql_eq_ok hlocation
  refine ⟨sourceSql, hsource, hbytes, hdash, ?_⟩
  have hjoin (a l f s c : List Char) :
      a ++ l ++ (f ++ ['(']) ++ s ++ [')'] ++ c = a ++ l ++ f ++ '(' :: (s ++ ')' :: c) := by
    simp only [List.append_assoc, List.cons_append, List.nil_append]
  have hfrom : " FROM (".toList = " FROM ".toList ++ ['('] := rfl
  have hclose : ")".toList = [')'] := rfl
  refine (Except.ok.inj hsql).symm.trans (Eq.trans ?_ (hjoin _ _ _ _ _))
  exact congrArg₂ (fun f c ↦ "COPY INTO ".toList ++ plan.location ++ f ++ sourceSql ++ c ++
    plan.options.clauses) hfrom hclose

theorem validateResultScanQueryId_eq_ok {queryId : List Char}
    (h : validateResultScanQueryId queryId = .ok ()) :
    queryId.all isResultScanQueryIdByte = true := by
  unfold validateResultScanQueryId refuse at h
  split_ifs at h with _ _ _ hbytes
  simpa using hbytes

/-- The SQL of a source is the lexer's whole if that of a query is. -/
theorem selfContained_source_iff {source : CopySource} {sourceSql : List Char}
    (h : source.toSql = .ok sourceSql) :
    SelfContained sourceSql ↔ ∀ sql, source = .query sql → SelfContained (trim sql) := by
  cases source with
  | query sql =>
      obtain ⟨-, -, hsql⟩ := bind_eq_ok_iff.mp h
      obtain rfl := Except.ok.inj hsql
      constructor
      · rintro hself _ ⟨⟩
        exact hself
      · exact fun hself ↦ hself sql rfl
  | resultScan queryId =>
      obtain ⟨_, hid, hsql⟩ := bind_eq_ok_iff.mp h
      obtain rfl := Except.ok.inj hsql
      exact iff_of_true (selfContained_resultScan (validateResultScanQueryId_eq_ok hid)) nofun

theorem selfContained_of_contained {plan : CopyIntoPlan} {sql : List Char}
    (h : plan.toSql = .ok sql) (hcontained : Contained plan sql) :
    ¬ ['/', '/'] <:+: plan.location ∧ ∀ sql, plan.source = .query sql → SelfContained (trim sql) := by
  obtain ⟨sourceSql, hsource, hbytes, hdash, rfl⟩ := toSql_eq_ok h
  obtain ⟨hreliable, hsingle, sourceSql', hsource', ts, us, vs, htokens, htarget, htext, hbalanced, -⟩ :=
    hcontained
  obtain rfl : sourceSql' = sourceSql := Except.ok.inj (hsource'.symm.trans hsource)
  obtain ⟨hclean, hended⟩ := lex_target hbytes hdash
  obtain ⟨hline, hself⟩ := selfContained_of_enclosed hclean hreliable hsingle htokens htarget htext
    hbalanced
  refine ⟨fun hslash ↦ ?_, (selfContained_source_iff hsource).mp hself⟩
  rw [hended.mpr hslash] at hline
  cases hline

/-- A plan keeps its source inside of its parentheses if and only if the location has no `//`
and the lexer takes the query, if it is one, as one whole. -/
theorem contained_iff {plan : CopyIntoPlan} {sql : List Char} (h : plan.toSql = .ok sql) :
    Contained plan sql ↔ ¬ ['/', '/'] <:+: plan.location ∧
      ∀ sql, plan.source = .query sql → SelfContained (trim sql) := by
  refine ⟨selfContained_of_contained h, fun ⟨hslash, hquery⟩ ↦ ?_⟩
  obtain ⟨sourceSql, hsource, hbytes, hdash, rfl⟩ := toSql_eq_ok h
  obtain ⟨hclean, hended⟩ := lex_target hbytes hdash
  have hline : endsInLineComment (target plan.location) = false :=
    Bool.eq_false_iff.mpr fun htrue ↦ hslash (hended.mp htrue)
  have hself := (selfContained_source_iff hsource).mpr hquery
  obtain ⟨hreliable, hsingle, htokens⟩ := enclosed_of_selfContained hclean
    (clean_clauses plan.options) hline hself
  exact ⟨hreliable, hsingle, sourceSql, hsource, _, _, _, htokens, flatten_tokenContent _,
    flatten_tokenContent _, hself.balanced, flatten_tokenContent _⟩

/-- CSV without a size limit. -/
def defaultCsv : CopyIntoOptions := ⟨.csv, .none, true, false, false, none⟩

/-- A quote in a dollar string hides a parenthesis from the scan of the source. -/
def closingPlan : CopyIntoPlan :=
  ⟨"@s".toList, .query "select $$'$$) OVERWRITE = TRUE --'".toList, defaultCsv⟩

/-- The query closes the parenthesis, appends an option and comments the plan's own out. -/
theorem not_contained : ¬ ∀ (plan : CopyIntoPlan) (sql : List Char), plan.toSql = .ok sql →
    Contained plan sql := by
  intro hclaim
  have hsql : closingPlan.toSql = .ok ("COPY INTO @s FROM (".toList ++
      "select $$'$$) OVERWRITE = TRUE --'".toList ++ ")".toList ++ defaultCsv.clauses) := by
    decide +kernel
  have hself := (selfContained_of_contained hsql (hclaim _ _ hsql)).2 _ rfl
  have hdepth : parenDepth 0 (tokenContent
      (trim "select $$'$$) OVERWRITE = TRUE --'".toList)) = none := by decide +kernel
  cases hdepth.symm.trans hself.balanced

/-- A query with a string, an identifier and a comment is contained. -/
theorem contained_iff_select : ∃ sql, Contained
    ⟨"@s/run".toList, .query "select f(')') as \"(\" from t".toList, defaultCsv⟩ sql := by
  let plan : CopyIntoPlan :=
    ⟨"@s/run".toList, .query "select f(')') as \"(\" from t".toList, defaultCsv⟩
  have hsql : plan.toSql = .ok ("COPY INTO @s/run FROM (".toList ++
      "select f(')') as \"(\" from t".toList ++ ")".toList ++ defaultCsv.clauses) := by
    decide +kernel
  have hself : SelfContained (trim "select f(')') as \"(\" from t".toList) := by
    refine ⟨by decide +kernel, ?_, by decide +kernel, by decide +kernel⟩
    have hkinds : (tokenContent (trim "select f(')') as \"(\" from t".toList)).all
        (·.1 ≠ .semicolon) = true := by decide +kernel
    exact fun t ht ↦ of_decide_eq_true (List.all_eq_true.mp hkinds t ht)
  refine ⟨_, (contained_iff hsql).mpr ⟨by decide +kernel, ?_⟩⟩
  rintro _ ⟨⟩
  exact hself

end FrankenSnowflake.Export
