import FrankenSnowflake.Catalog.Bindings

/-!
# The conditions of a plan

Behind its object a plan has a time-travel clause, then the comparisons of the axes in
a fixed order, then the filter.  Plans with one text have the same of these, up to the
filter.
-/

namespace FrankenSnowflake.Catalog

open Foundation

/-! ## Time travel -/

/-- The time-travel clause of a plan. -/
def atClause : Option Text → Text
  | none => []
  | some asOf => ' ' :: 'A' :: ("T(TIMESTAMP => ".toList ++ timeTravelTimestampLiteral asOf ++
      ")".toList)

theorem selectFrom_eq (manifest : DatasetManifest) (request : DatasetQueryRequest)
    (projection : List ColumnCatalogEntry) :
    selectFrom manifest request projection =
      "SELECT ".toList ++ join ", ".toList ((projection.map (·.column)).map quoteIdentifier) ++
        " FROM ".toList ++
        quoteQualifiedObject manifest.database manifest.schema manifest.object ++
        atClause request.asOf := by
  rw [List.map_map]
  unfold selectFrom
  cases request.asOf <;> rfl

theorem quoteQualifiedObject_append (database schema object r : Text) :
    quoteQualifiedObject database schema object ++ r =
      quoteIdentifier database ++ '.' :: (quoteIdentifier schema ++ '.' ::
        (quoteIdentifier object ++ r)) := by
  simp [quoteQualifiedObject, join]

theorem atClause_append_head (asOf : Option Text) (r : Text) :
    (atClause asOf ++ ' ' :: r).head? = some ' ' := by
  cases asOf <;> rfl

/-- What is behind the object of a plan can be read off behind the columns. -/
theorem selectFrom_append_inj' {m m' : DatasetManifest} {request request' : DatasetQueryRequest}
    {ps ps' : List ColumnCatalogEntry} {r r' : Text}
    (h : selectFrom m request ps ++ ' ' :: r = selectFrom m' request' ps' ++ ' ' :: r') :
    atClause request.asOf ++ ' ' :: r = atClause request'.asOf ++ ' ' :: r' := by
  rw [selectFrom_eq, selectFrom_eq] at h
  simp only [List.append_assoc] at h
  have hprojection := List.append_cancel_left h
  rw [← List.append_assoc, ← List.append_assoc (join ", ".toList _)] at hprojection
  have hobject := (projection_append_inj hprojection).2
  rw [quoteQualifiedObject_append, quoteQualifiedObject_append] at hobject
  have hschema := (quoteIdentifier_append_inj (by simp) (by simp) hobject).2
  have hname := (quoteIdentifier_append_inj (by simp) (by simp) (List.cons_eq_cons.mp hschema).2).2
  refine (quoteIdentifier_append_inj ?_ ?_ (List.cons_eq_cons.mp hname).2).2
  · rw [atClause_append_head]
    decide
  · rw [atClause_append_head]
    decide

theorem exists_tail (clauses : List Text) :
    ∃ r, whereText clauses ++ (" LIMIT ".toList ++ "?".toList) = ' ' :: r ∧
      r.head? ≠ some 'A' := by
  unfold whereText
  split_ifs
  · exact ⟨"LIMIT ?".toList, rfl, by decide⟩
  · exact ⟨"WHERE ".toList ++ join " AND ".toList clauses ++ (" LIMIT ".toList ++ "?".toList), rfl,
      by simp⟩

theorem atClause_append_inj {asOf asOf' : Option Text} {r r' : Text}
    (hasOf : asOf.getD [] = asOf'.getD []) (hr : r.head? ≠ some 'A') (hr' : r'.head? ≠ some 'A')
    (h : atClause asOf ++ ' ' :: r = atClause asOf' ++ ' ' :: r') : asOf = asOf' := by
  cases asOf with
  | none =>
      cases asOf' with
      | none => rfl
      | some asOf' =>
          have hcons : r = 'A' :: _ := (List.cons_eq_cons.mp h).2
          exact absurd (congrArg List.head? hcons) hr
  | some asOf =>
      cases asOf' with
      | none =>
          have hcons : r' = 'A' :: _ := (List.cons_eq_cons.mp h).2.symm
          exact absurd (congrArg List.head? hcons) hr'
      | some asOf' => exact congrArg some hasOf

/-! ## Comparisons -/

/-- The comparison of a column with a placeholder. -/
def comparison (column symbol : Text) : Text :=
  quoteIdentifier column ++ ' ' :: (symbol ++ [' ', '?'])

/-- Comparisons that begin one text have symbols that begin one text. -/
theorem comparison_append_inj {column column' symbol symbol' r r' : Text}
    (h : comparison column symbol ++ r = comparison column' symbol' ++ r') :
    symbol ++ ' ' :: '?' :: r = symbol' ++ ' ' :: '?' :: r' := by
  unfold comparison at h
  rw [List.append_assoc, List.append_assoc] at h
  have hrest := (quoteIdentifier_append_inj (by simp) (by simp) h).2
  simpa using hrest

theorem join_cons_append {separator clause u : Text} {clauses : List Text} (h : clauses ≠ []) :
    join separator (clause :: clauses) ++ u =
      clause ++ (separator ++ (join separator clauses ++ u)) := by
  obtain ⟨next, clauses, rfl⟩ := List.exists_cons_of_ne_nil h
  simp [join, List.intercalate_cons_cons]

theorem exists_join_cons_append (separator clause u : Text) (clauses : List Text) :
    ∃ t, join separator (clause :: clauses) ++ u = clause ++ t := by
  cases clauses with
  | nil => exact ⟨u, by simp [join]⟩
  | cons next clauses => exact ⟨_, join_cons_append (List.cons_ne_nil _ _)⟩

/-- Conditions that are written alike begin with the same symbol. -/
theorem first_symbol {column column' symbol symbol' u u' : Text} {clauses clauses' : List Text}
    (h : join " AND ".toList (comparison column symbol :: clauses) ++ u =
      join " AND ".toList (comparison column' symbol' :: clauses') ++ u') :
    ∃ t t', symbol ++ ' ' :: t = symbol' ++ ' ' :: t' := by
  obtain ⟨t, ht⟩ := exists_join_cons_append " AND ".toList (comparison column symbol) u clauses
  obtain ⟨t', ht'⟩ := exists_join_cons_append " AND ".toList (comparison column' symbol') u' clauses'
  rw [ht, ht'] at h
  exact ⟨_, _, comparison_append_inj h⟩

/-- At most one comparison by a symbol. -/
def AtMostOne (symbol : Text) (clauses : List Text) : Prop :=
  clauses = [] ∨ ∃ column, clauses = [comparison column symbol]

/-- Behind as many comparisons by `=`, a lower bound is not written as an upper bound. -/
theorem bounds_of_join_eq {entity entity' start clauses clauses' : List Text}
    {column column' u u' : Text} (hentity : AtMostOne "=".toList entity)
    (hentity' : AtMostOne "=".toList entity') (hstart : AtMostOne ">=".toList start)
    (h : join " AND ".toList (entity ++ comparison column ">=".toList :: clauses) ++ u =
      join " AND ".toList (entity' ++ (start ++ comparison column' "<=".toList :: clauses')) ++ u') :
    start ≠ [] ∧ entity.length = entity'.length := by
  rcases hentity with rfl | ⟨e, rfl⟩
  · rcases hentity' with rfl | ⟨e', rfl⟩
    · refine ⟨?_, rfl⟩
      rintro rfl
      obtain ⟨t, t', ht⟩ := first_symbol h
      cases (List.cons_eq_cons.mp ht).1
    · obtain ⟨t, t', ht⟩ := first_symbol h
      cases (List.cons_eq_cons.mp ht).1
  · rcases hentity' with rfl | ⟨e', rfl⟩
    · rcases hstart with rfl | ⟨s, rfl⟩
      · obtain ⟨t, t', ht⟩ := first_symbol h
        cases (List.cons_eq_cons.mp ht).1
      · obtain ⟨t, t', ht⟩ := first_symbol h
        cases (List.cons_eq_cons.mp ht).1
    · refine ⟨?_, rfl⟩
      rintro rfl
      rw [List.singleton_append, List.singleton_append, List.nil_append,
        join_cons_append (List.cons_ne_nil _ _), join_cons_append (List.cons_ne_nil _ _)] at h
      -- the first comparisons end at one place
      have hrest := List.append_cancel_left (comparison_append_inj h)
      have hnext := (List.cons_eq_cons.mp (List.cons_eq_cons.mp hrest).2).2
      obtain ⟨t, t', ht⟩ := first_symbol (List.append_cancel_left hnext)
      cases (List.cons_eq_cons.mp ht).1

/-! ## Axes -/

section Axes

variable {R : Rendering} {find : Lookup} {manifest : DatasetManifest}
  {columns : List ColumnCatalogEntry} {request : DatasetQueryRequest}

theorem isSome_axisColumn {role : FieldRole} {roleName : Text}
    (h : validateAxis R find manifest columns role roleName = []) :
    (axisColumn find manifest columns role).isSome := by
  unfold validateAxis at h
  unfold axisColumn
  cases hfield : manifest.fieldByRole role with
  | none => simp [hfield] at h
  | some field =>
      simp only [hfield] at h
      split_ifs at h with hsome
      exact hsome

/-- What an axis adds: nothing, or one comparison and one binding. -/
theorem axisFilter_cases {value : Option Text} {role : FieldRole} (symbol : Text) (b : Binder)
    (h : value.isSome → (axisColumn find manifest columns role).isSome) :
    (value = none ∧ axisFilter find manifest columns value role symbol b = ([], b)) ∨
      ∃ (v : Text) (column : ColumnCatalogEntry), value = some v ∧ axisFilter find manifest columns value role symbol b =
        ([comparison column.column symbol], (pushBinding b column.dtypeClass v).2) := by
  cases value with
  | none => exact .inl ⟨rfl, rfl⟩
  | some v =>
      obtain ⟨column, hcolumn⟩ := Option.isSome_iff_exists.mp (h rfl)
      refine .inr ⟨v, column, rfl, ?_⟩
      unfold axisFilter
      rw [hcolumn]
      show ([quoteIdentifier column.column ++ " ".toList ++ symbol ++ " ".toList ++ "?".toList], _) =
        _
      simp [comparison]

theorem axes_of_accepted {operators : List OperatorCatalogEntry}
    (h : (checkRequest R find manifest columns operators request).2 = []) :
    (request.entity.isSome → (axisColumn find manifest columns .entityKey).isSome) ∧
      (request.«from».isSome ∨ request.«to».isSome →
        (axisColumn find manifest columns .timeIndex).isSome) := by
  have haxes : validateAxes R find manifest columns request = [] :=
    (List.append_eq_nil_iff.mp (List.append_eq_nil_iff.mp (List.append_eq_nil_iff.mp h).1).1).2
  unfold validateAxes at haxes
  obtain ⟨⟨hentity, htime⟩, -⟩ := (List.append_eq_nil_iff.mp haxes).imp_left List.append_eq_nil_iff.mp
  constructor
  · intro hsome
    rw [if_pos hsome] at hentity
    exact isSome_axisColumn hentity
  · intro hsome
    rw [if_pos hsome] at htime
    exact isSome_axisColumn htime

end Axes

/-! ## Bounds of accepted requests -/

section Bounds

variable {R : Rendering} {find : Lookup} {manifest manifest' : DatasetManifest}
  {columns columns' : List ColumnCatalogEntry} {operators operators' : List OperatorCatalogEntry}
  {request request' : DatasetQueryRequest} {compiled compiled' : Option CompiledPredicate × Binder}
  {plan plan' : QueryPlan}

/-- The conditions of a plan, given the SQL of its filter. -/
def conditions (find : Lookup) (manifest : DatasetManifest) (columns : List ColumnCatalogEntry)
    (request : DatasetQueryRequest) (compiled : Option CompiledPredicate × Binder) : List Text :=
  (addAxisFilters find manifest (sortedDatasetColumns manifest.id columns) request .new).1 ++
    compiled.1.toList.map (·.sql)

/-- What has been bound when the lower bound is bound. -/
def boundEntity (find : Lookup) (manifest : DatasetManifest) (columns : List ColumnCatalogEntry)
    (request : DatasetQueryRequest) : List Text × Binder :=
  axisFilter find manifest (sortedDatasetColumns manifest.id columns) request.entity .entityKey
    "=".toList .new

/-- The lower bound, bound behind the entity. -/
def boundFrom (find : Lookup) (manifest : DatasetManifest) (columns : List ColumnCatalogEntry)
    (request : DatasetQueryRequest) : List Text × Binder :=
  axisFilter find manifest (sortedDatasetColumns manifest.id columns) request.«from» .timeIndex
    ">=".toList (boundEntity find manifest columns request).2

/-- The upper bound, bound behind the lower one. -/
def boundTo (find : Lookup) (manifest : DatasetManifest) (columns : List ColumnCatalogEntry)
    (request : DatasetQueryRequest) : List Text × Binder :=
  axisFilter find manifest (sortedDatasetColumns manifest.id columns) request.«to» .timeIndex
    "<=".toList (boundFrom find manifest columns request).2

theorem conditions_eq (find : Lookup) (manifest : DatasetManifest)
    (columns : List ColumnCatalogEntry) (request : DatasetQueryRequest)
    (compiled : Option CompiledPredicate × Binder) :
    conditions find manifest columns request compiled =
      (boundEntity find manifest columns request).1 ++ ((boundFrom find manifest columns request).1 ++
        ((boundTo find manifest columns request).1 ++ compiled.1.toList.map (·.sql))) := by
  show (boundEntity find manifest columns request).1 ++ (boundFrom find manifest columns request).1 ++
    (boundTo find manifest columns request).1 ++ compiled.1.toList.map (·.sql) = _
  rw [List.append_assoc, List.append_assoc]

theorem boundFrom_of_none (hfrom : request.«from» = none) :
    (boundFrom find manifest columns request).1 = [] := by
  unfold boundFrom
  rw [hfrom]
  rfl

theorem Planned.isBindingEntry (h : Planned R find manifest columns operators request compiled plan) :
    ∀ e ∈ plan.bindings.entries, IsBindingEntry e := by
  rw [h.bindings]
  exact kept_isBindingEntry _ _ _ (kept_isBindingEntry.compileFilter h.filter
    (kept_isBindingEntry.addAxisFilters nofun))

theorem Planned.axes (h : Planned R find manifest columns operators request compiled plan) :
    (request.entity.isSome → (axisColumn find manifest (sortedDatasetColumns manifest.id columns)
      .entityKey).isSome) ∧
    (request.«from».isSome ∨ request.«to».isSome → (axisColumn find manifest
      (sortedDatasetColumns manifest.id columns) .timeIndex).isSome) :=
  axes_of_accepted h.accepted

theorem Planned.boundFrom_eq {v : Text}
    (h : Planned R find manifest columns operators request compiled plan)
    (hfrom : request.«from» = some v) :
    ∃ column : ColumnCatalogEntry, boundFrom find manifest columns request =
      ([comparison column.column ">=".toList],
        (pushBinding (boundEntity find manifest columns request).2 column.dtypeClass v).2) := by
  unfold boundFrom
  rcases axisFilter_cases ">=".toList (boundEntity find manifest columns request).2
      (fun hsome ↦ h.axes.2 (.inl hsome)) with ⟨hnone, -⟩ | ⟨v', column, hsome, heq⟩
  · rw [hfrom] at hnone
    cases hnone
  · rw [hfrom] at hsome
    obtain rfl := Option.some.inj hsome
    exact ⟨column, heq⟩

/-- The binding of the lower bound has its length. -/
theorem Planned.exists_binding {v : Text}
    (h : Planned R find manifest columns operators request compiled plan)
    (hfrom : request.«from» = some v) :
    ∃ binding, plan.bindings.get?
      (Nat.toDigits 10 (boundEntity find manifest columns request).2.nextBinding) = some binding ∧
      binding.value.length = v.length := by
  obtain ⟨column, hstart⟩ := h.boundFrom_eq hfrom
  obtain ⟨binding, hget, hlength⟩ := pushBinding_get?
    (boundEntity find manifest columns request).2 column.dtypeClass v
  refine ⟨binding, ?_, hlength⟩
  -- what is bound later leaves the binding
  have hkept := kept_extends (boundFrom find manifest columns request).2
  have hextends := hkept _ .number (Nat.toDigits 10 (effectiveLimit manifest request))
    (hkept.compileFilter h.filter (hkept.axisFilter request.«to» .timeIndex "<=".toList (.refl _)))
  rw [hstart] at hextends
  rw [h.bindings, hextends.get? _ (Nat.lt_succ_self _), hget]

/-- Two plans with one text go on alike behind their objects. -/
theorem atClause_eq_of_sql_eq
    (h : Planned R find manifest columns operators request compiled plan)
    (h' : Planned R find manifest' columns' operators' request' compiled' plan')
    (hsql : plan.sql = plan'.sql) :
    atClause request.asOf ++ (whereText (conditions find manifest columns request compiled) ++
        (" LIMIT ".toList ++ "?".toList)) =
      atClause request'.asOf ++ (whereText (conditions find manifest' columns' request' compiled') ++
        (" LIMIT ".toList ++ "?".toList)) := by
  rw [h.sql, h'.sql, ← conditions, ← conditions] at hsql
  simp only [List.append_assoc] at hsql
  obtain ⟨r, hr, -⟩ := exists_tail (conditions find manifest columns request compiled)
  obtain ⟨r', hr', -⟩ := exists_tail (conditions find manifest' columns' request' compiled')
  rw [hr, hr'] at hsql ⊢
  exact selectFrom_append_inj' hsql

theorem asOf_eq_of_sql_eq
    (h : Planned R find manifest columns operators request compiled plan)
    (h' : Planned R find manifest' columns' operators' request' compiled' plan')
    (hsql : plan.sql = plan'.sql) (hasOf : request.asOf.getD [] = request'.asOf.getD []) :
    request.asOf = request'.asOf := by
  have hat := atClause_eq_of_sql_eq h h' hsql
  obtain ⟨r, hr, hhead⟩ := exists_tail (conditions find manifest columns request compiled)
  obtain ⟨r', hr', hhead'⟩ := exists_tail (conditions find manifest' columns' request' compiled')
  rw [hr, hr'] at hat
  exact atClause_append_inj hasOf hhead hhead' hat

/-- The entity is bound first, if it is there. -/
theorem Planned.boundEntity_cases
    (h : Planned R find manifest columns operators request compiled plan) :
    AtMostOne "=".toList (boundEntity find manifest columns request).1 ∧
      (boundEntity find manifest columns request).2.nextBinding =
        1 + (boundEntity find manifest columns request).1.length := by
  unfold boundEntity
  rcases axisFilter_cases "=".toList Binder.new h.axes.1 with
    ⟨-, heq⟩ | ⟨v, column, -, heq⟩
  · rw [heq]
    exact ⟨.inl rfl, rfl⟩
  · rw [heq]
    exact ⟨.inr ⟨_, rfl⟩, rfl⟩

/-- A lower bound is the first comparison behind the entity. -/
theorem Planned.conditions_of_from {v : Text}
    (h : Planned R find manifest columns operators request compiled plan)
    (hfrom : request.«from» = some v) :
    ∃ column clauses, conditions find manifest columns request compiled =
      (boundEntity find manifest columns request).1 ++ comparison column ">=".toList :: clauses := by
  obtain ⟨column, hstart⟩ := h.boundFrom_eq hfrom
  refine ⟨column.column, (boundTo find manifest columns request).1 ++
    compiled.1.toList.map (·.sql), ?_⟩
  rw [conditions_eq, hstart]
  rfl

/-- An upper bound is the first comparison behind the entity and the lower bound. -/
theorem Planned.conditions_of_to {w : Text}
    (h : Planned R find manifest columns operators request compiled plan)
    (hto : request.«to» = some w) :
    ∃ start column clauses, AtMostOne ">=".toList start ∧
      (start ≠ [] → ∃ v, request.«from» = some v) ∧
      conditions find manifest columns request compiled =
        (boundEntity find manifest columns request).1 ++
          (start ++ comparison column "<=".toList :: clauses) := by
  refine ⟨(boundFrom find manifest columns request).1, ?_⟩
  rcases axisFilter_cases "<=".toList (boundFrom find manifest columns request).2
      (fun hsome ↦ h.axes.2 (.inr hsome)) with ⟨hnone, -⟩ | ⟨w, column, -, hstop⟩
  · rw [hto] at hnone
    cases hnone
  · refine ⟨column.column, compiled.1.toList.map (·.sql), ?_, ?_, ?_⟩
    · cases hfrom : request.«from» with
      | none => exact .inl (boundFrom_of_none hfrom)
      | some v =>
          obtain ⟨column, hstart⟩ := h.boundFrom_eq hfrom
          exact .inr ⟨column.column, congrArg Prod.fst hstart⟩
    · intro hne
      cases hfrom : request.«from» with
      | none => exact absurd (boundFrom_of_none hfrom) hne
      | some v => exact ⟨v, rfl⟩
    · rw [conditions_eq]
      unfold boundTo
      rw [hstop]
      rfl

/-- Of two plans with one text, one with a lower bound and the other with an upper
bound, the other has a lower bound too, and it is bound at the same position. -/
theorem from_of_sql_eq {v w : Text}
    (h : Planned R find manifest columns operators request compiled plan)
    (h' : Planned R find manifest' columns' operators' request' compiled' plan')
    (hsql : plan.sql = plan'.sql) (hasOf : request.asOf = request'.asOf)
    (hfrom : request.«from» = some v) (hto : request'.«to» = some w) :
    (∃ v', request'.«from» = some v') ∧
      (boundEntity find manifest columns request).2.nextBinding =
        (boundEntity find manifest' columns' request').2.nextBinding := by
  obtain ⟨hentity, hnext⟩ := h.boundEntity_cases
  obtain ⟨hentity', hnext'⟩ := h'.boundEntity_cases
  obtain ⟨column, clauses, hclauses⟩ := h.conditions_of_from hfrom
  obtain ⟨start', column', clauses', hstart', hfrom', hclauses'⟩ := h'.conditions_of_to hto
  have hat := atClause_eq_of_sql_eq h h' hsql
  rw [hasOf, hclauses, hclauses', whereText, whereText] at hat
  have hwhere := List.append_cancel_left hat
  rw [if_neg (by simp), if_neg (by simp), List.append_assoc, List.append_assoc] at hwhere
  obtain ⟨hne, hlength⟩ := bounds_of_join_eq hentity hentity' hstart'
    (List.append_cancel_left hwhere)
  exact ⟨hfrom' hne, by rw [hnext, hnext', hlength]⟩

/-- The lower bounds of two such plans with the same bindings have one length. -/
theorem length_from_of_sql_eq {v w : Text}
    (h : Planned R find manifest columns operators request compiled plan)
    (h' : Planned R find manifest' columns' operators' request' compiled' plan')
    (hsql : plan.sql = plan'.sql) (hbindings : plan.bindings = plan'.bindings)
    (hasOf : request.asOf = request'.asOf)
    (hfrom : request.«from» = some v) (hto : request'.«to» = some w) :
    ∃ v', request'.«from» = some v' ∧ v'.length = v.length := by
  obtain ⟨⟨v', hfrom'⟩, hnext⟩ := from_of_sql_eq h h' hsql hasOf hfrom hto
  obtain ⟨binding, hget, hlength⟩ := h.exists_binding hfrom
  obtain ⟨binding', hget', hlength'⟩ := h'.exists_binding hfrom'
  rw [hbindings, hnext, hget'] at hget
  obtain rfl := Option.some.inj hget
  exact ⟨v', hfrom', hlength'.symm.trans hlength⟩

end Bounds

end FrankenSnowflake.Catalog
