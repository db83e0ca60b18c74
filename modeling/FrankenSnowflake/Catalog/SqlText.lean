import FrankenSnowflake.Catalog.Planner
import FrankenSnowflake.Foundation.Fallible
import FrankenSnowflake.Foundation.Template

/-!
# Reading the SQL of a plan

A quoted identifier ends at its first quote that is not doubled, so the texts that
the planner writes for two lookups of the same names differ where the columns do.
-/

namespace FrankenSnowflake.Catalog

open Foundation Template

/-! ## Quoted identifiers -/

/-- The inside of a quoted identifier. -/
def doubled (identifier : Text) : Text :=
  identifier.flatMap fun c ↦ if c = '"' then ['"', '"'] else [c]

theorem doubled_quote (x : Text) : doubled ('"' :: x) = '"' :: '"' :: doubled x := rfl

theorem doubled_cons {c : Char} (hc : c ≠ '"') (x : Text) : doubled (c :: x) = c :: doubled x := by
  rw [doubled, List.flatMap_cons, if_neg hc]
  rfl

theorem quoteIdentifier_append (x r : Text) :
    quoteIdentifier x ++ r = '"' :: (doubled x ++ '"' :: r) := by
  rw [quoteIdentifier, doubled, List.cons_append, List.append_assoc]
  rfl

theorem doubled_append_inj {x y r r' : Text} (hr : r.head? ≠ some '"') (hr' : r'.head? ≠ some '"')
    (h : doubled x ++ '"' :: r = doubled y ++ '"' :: r') : x = y ∧ r = r' := by
  induction x generalizing y with
  | nil =>
      cases y with
      | nil => exact ⟨rfl, (List.cons.inj h).2⟩
      | cons d y =>
          by_cases hd : d = '"'
          · subst hd
            rw [doubled_quote] at h
            exact absurd (by rw [(List.cons.inj h).2]; rfl) hr
          · rw [doubled_cons hd] at h
            exact absurd (List.cons.inj h).1.symm hd
  | cons c x ih =>
      by_cases hc : c = '"'
      · subst hc
        rw [doubled_quote] at h
        cases y with
        | nil => exact absurd (by rw [← (List.cons.inj h).2]; rfl) hr'
        | cons d y =>
            by_cases hd : d = '"'
            · subst hd
              rw [doubled_quote] at h
              obtain ⟨rfl, hrest⟩ := ih (List.cons.inj (List.cons.inj h).2).2
              exact ⟨rfl, hrest⟩
            · rw [doubled_cons hd] at h
              exact absurd (List.cons.inj h).1.symm hd
      · rw [doubled_cons hc] at h
        cases y with
        | nil => exact absurd (List.cons.inj h).1 hc
        | cons d y =>
            by_cases hd : d = '"'
            · subst hd
              rw [doubled_quote] at h
              exact absurd (List.cons.inj h).1 hc
            · rw [doubled_cons hd] at h
              obtain ⟨rfl, htail⟩ := List.cons.inj h
              obtain ⟨rfl, hrest⟩ := ih htail
              exact ⟨rfl, hrest⟩

/-- A quoted identifier can be read off the front of a text. -/
theorem quoteIdentifier_append_inj {x y r r' : Text} (hr : r.head? ≠ some '"')
    (hr' : r'.head? ≠ some '"') (h : quoteIdentifier x ++ r = quoteIdentifier y ++ r') :
    x = y ∧ r = r' := by
  rw [quoteIdentifier_append, quoteIdentifier_append] at h
  exact doubled_append_inj hr hr' (List.cons.inj h).2

/-- Two quoted identifiers in front of one text that goes on without a quote. -/
theorem agree_quoteIdentifier {x y u : Text} {c : Char} (hc : c ≠ '"') :
    Template.Agree (quoteIdentifier x ++ c :: u) (quoteIdentifier y ++ c :: u) (x = y) := by
  intro r r' h
  rw [List.append_assoc, List.append_assoc] at h
  obtain ⟨hx, hrest⟩ := quoteIdentifier_append_inj (by simp [hc]) (by simp [hc]) h
  exact ⟨List.append_cancel_left hrest, hx⟩

/-- The columns of a `SELECT` can be read off the front of a text. -/
theorem projection_append_inj {xs ys : List Text} {r r' : Text}
    (h : join ", ".toList (xs.map quoteIdentifier) ++ " FROM ".toList ++ r =
      join ", ".toList (ys.map quoteIdentifier) ++ " FROM ".toList ++ r') : xs = ys ∧ r = r' := by
  simp only [join, String.reduceToList, List.append_assoc] at h
  induction xs generalizing ys with
  | nil =>
      cases ys with
      | nil => exact ⟨rfl, List.append_cancel_left h⟩
      | cons y ys => cases ys <;> simp [quoteIdentifier] at h
  | cons x xs ih =>
      cases ys with
      | nil => cases xs <;> simp [quoteIdentifier] at h
      | cons y ys =>
          cases xs with
          | nil =>
              cases ys with
              | nil =>
                  simp only [List.map_cons, List.map_nil, List.intercalate_singleton] at h
                  obtain ⟨rfl, hrest⟩ := quoteIdentifier_append_inj (by simp) (by simp) h
                  exact ⟨rfl, List.append_cancel_left hrest⟩
              | cons y' ys =>
                  simp only [List.map_cons, List.map_nil, List.intercalate_singleton,
                    List.intercalate_cons_cons, List.append_assoc] at h
                  obtain ⟨-, hrest⟩ := quoteIdentifier_append_inj (by simp) (by simp) h
                  simp at hrest
          | cons x' xs =>
              cases ys with
              | nil =>
                  simp only [List.map_cons, List.map_nil, List.intercalate_singleton,
                    List.intercalate_cons_cons, List.append_assoc] at h
                  obtain ⟨-, hrest⟩ := quoteIdentifier_append_inj (by simp) (by simp) h
                  simp at hrest
              | cons y' ys =>
                  simp only [List.map_cons, List.intercalate_cons_cons, List.append_assoc] at h ih
                  obtain ⟨rfl, hrest⟩ := quoteIdentifier_append_inj (by simp) (by simp) h
                  have htail := ih (List.append_cancel_left hrest :
                    _ = List.intercalate _ ((y' :: ys).map quoteIdentifier) ++ _)
                  exact ⟨by rw [htail.1], htail.2⟩

/-! ## Comparisons -/

@[simp] theorem pushBinding_fst (b : Binder) (dtype : DtypeClass) (value : Text) :
    (pushBinding b dtype value).1 = "?".toList := rfl

theorem pushBindings_fst (b : Binder) (dtype : DtypeClass) (values : List Text) :
    (pushBindings b dtype values).1 = values.map fun _ ↦ "?".toList := by
  induction values generalizing b with
  | nil => rfl
  | cons value values ih => rw [pushBindings, List.map_cons, ih, pushBinding_fst]

/-- The comparisons of two columns by one operator. -/
theorem compileOperator_agree (c c' : ColumnCatalogEntry) (values : List Text) (b b' : Binder)
    (op : SqlOperator) :
    Template.Agree (compileOperator c values b op).1 (compileOperator c' values b' op).1
      (c.column = c'.column) := by
  cases op with
  | compare symbol =>
      show Template.Agree (quoteIdentifier c.column ++ " ".toList ++ symbol.toList ++ " ".toList ++ "?".toList)
        (quoteIdentifier c'.column ++ " ".toList ++ symbol.toList ++ " ".toList ++ "?".toList) _
      simp only [String.reduceToList, List.append_assoc, List.cons_append, List.nil_append]
      exact agree_quoteIdentifier (by decide)
  | between =>
      show Template.Agree (quoteIdentifier c.column ++ " BETWEEN ".toList ++ "?".toList ++ " AND ".toList ++
          "?".toList)
        (quoteIdentifier c'.column ++ " BETWEEN ".toList ++ "?".toList ++ " AND ".toList ++
          "?".toList) _
      simp only [String.reduceToList, List.append_assoc, List.cons_append]
      exact agree_quoteIdentifier (by decide)
  | «in» =>
      show Template.Agree (quoteIdentifier c.column ++ " IN (".toList ++
          join ", ".toList (pushBindings b c.dtypeClass values).1 ++ ")".toList)
        (quoteIdentifier c'.column ++ " IN (".toList ++
          join ", ".toList (pushBindings b' c'.dtypeClass values).1 ++ ")".toList) _
      rw [pushBindings_fst, pushBindings_fst]
      simp only [String.reduceToList, List.append_assoc, List.cons_append]
      exact agree_quoteIdentifier (by decide)
  | isNull =>
      show Template.Agree (quoteIdentifier c.column ++ " IS NULL".toList)
        (quoteIdentifier c'.column ++ " IS NULL".toList) _
      simp only [String.reduceToList]
      exact agree_quoteIdentifier (by decide)
  | isNotNull =>
      show Template.Agree (quoteIdentifier c.column ++ " IS NOT NULL".toList)
        (quoteIdentifier c'.column ++ " IS NOT NULL".toList) _
      simp only [String.reduceToList]
      exact agree_quoteIdentifier (by decide)
  | contains =>
      show Template.Agree ("POSITION(".toList ++ "?".toList ++ " IN ".toList ++ quoteIdentifier c.column ++
          ") > 0".toList)
        ("POSITION(".toList ++ "?".toList ++ " IN ".toList ++ quoteIdentifier c'.column ++
          ") > 0".toList) _
      simp only [List.append_assoc]
      refine .append_left _ (.append_left _ (.append_left _ ?_))
      simp only [String.reduceToList]
      exact agree_quoteIdentifier (by decide)

/-! ## Accepted requests -/

section Accepted

variable {R : Rendering} {find : Lookup} {manifest : DatasetManifest}
  {columns : List ColumnCatalogEntry} {operators : List OperatorCatalogEntry}
  {request : DatasetQueryRequest} {plan : QueryPlan}

/-- What a plan is, given the SQL of its filter. -/
structure Planned (R : Rendering) (find : Lookup) (manifest : DatasetManifest)
    (columns : List ColumnCatalogEntry) (operators : List OperatorCatalogEntry)
    (request : DatasetQueryRequest) (compiled : Option CompiledPredicate × Binder)
    (plan : QueryPlan) : Prop where
  id : manifest.id = request.datasetId
  accepted : (checkRequest R find manifest (sortedDatasetColumns manifest.id columns) operators
    request).2 = []
  filter : compileFilter R find (sortedDatasetColumns manifest.id columns) request
    (addAxisFilters find manifest (sortedDatasetColumns manifest.id columns) request .new).2 =
      .ok compiled
  sql : plan.sql =
    selectFrom manifest request (resolveProjection R find manifest
        (sortedDatasetColumns manifest.id columns) request).1 ++
      whereText ((addAxisFilters find manifest (sortedDatasetColumns manifest.id columns)
        request .new).1 ++ compiled.1.toList.map (·.sql)) ++ " LIMIT ".toList ++ "?".toList
  bindings : plan.bindings =
    (pushBinding compiled.2 .number (Nat.toDigits 10 (effectiveLimit manifest request))).2.bindings
  guardrails : ∃ warnings, plannerGuardrails plan.sql (effectiveLimit manifest request)
    request.exportMode request.warehouse (queryTag request) = .ok (plan.guardrails, warnings)
  planId : plan.planId = planId plan.sql plan.bindings plan.guardrails manifest request

theorem exists_planned (h : planWith R find manifest columns operators request = .ok plan) :
    ∃ compiled, Planned R find manifest columns operators request compiled plan := by
  unfold planWith at h
  split_ifs at h with hid haccepted
  dsimp only at h
  split_ifs at h with haccepted
  cases hassemble : assemble R find manifest request (sortedDatasetColumns manifest.id columns)
      (checkRequest R find manifest (sortedDatasetColumns manifest.id columns) operators
        request).1 with
  | error refusal => simp [hassemble] at h
  | ok result =>
      obtain ⟨sql, bindings, pushdown⟩ := result
      simp only [hassemble] at h
      cases hguard : plannerGuardrails sql (effectiveLimit manifest request) request.exportMode
          request.warehouse (queryTag request) with
      | error refusal => simp [hguard] at h
      | ok guarded =>
          obtain ⟨guardrails, warnings⟩ := guarded
          simp only [hguard, Except.ok.injEq] at h
          subst h
          obtain ⟨compiled, hfilter, hresult⟩ := bind_eq_ok_iff.mp hassemble
          obtain ⟨rfl, hrest⟩ := Prod.mk.inj (pure_eq_ok_iff.mp hresult)
          obtain ⟨rfl, -⟩ := Prod.mk.inj hrest
          refine ⟨compiled, not_not.mp hid, ?_, hfilter, rfl, rfl, ⟨warnings, hguard⟩, rfl⟩
          simpa using haccepted

end Accepted

end FrankenSnowflake.Catalog
