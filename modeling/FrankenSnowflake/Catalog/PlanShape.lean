import FrankenSnowflake.Catalog.PlanContained

/-!
# The shape of a request

The SQL of a plan is settled by what a request asks for, and not by the values that it
asks about: these are bound, so no value and no limit can be told from the SQL.
-/

namespace FrankenSnowflake.Catalog

open Foundation SqlLexer SqlCondition

/-! ## Requests without their values -/

/-- As many values, none of which says anything. -/
def erasedValue (value : Option JsonValue) : Option JsonValue :=
  some (.array (List.replicate (valueCount value) .null))

mutual

def erased : PredicateAst → PredicateAst
  | .compound and or not => .compound (erasedAll and) (erasedAll or) (erasedNot not)
  | .leaf leaf => .leaf { leaf with value := erasedValue leaf.value }

def erasedAll : List PredicateAst → List PredicateAst
  | [] => []
  | p :: ps => erased p :: erasedAll ps

def erasedNot : Option PredicateAst → Option PredicateAst
  | none => none
  | some p => some (erased p)

end

/-- What a request asks for: its columns, its time, its axes and the columns, operators
and numbers of values of its filter. -/
def DatasetQueryRequest.shape (request : DatasetQueryRequest) : DatasetQueryRequest where
  datasetId := request.datasetId
  select := request.select
  entity := request.entity.map fun _ ↦ []
  «from» := request.«from».map fun _ ↦ []
  «to» := request.«to».map fun _ ↦ []
  asOf := request.asOf
  filter := request.filter.map erased
  limit := none
  exportMode := false
  confirmationToken := none
  warehouse := none
  profileFingerprint := []
  commandId := []
  traceId := []

/-! ## Pieces without their values -/

theorem length_valueStrings (R : Rendering) (value : Option JsonValue) :
    (valueStrings R value).length = valueCount value := by
  cases value with
  | none => rfl
  | some value =>
      cases value with
      | array values => exact List.length_map _
      | _ => rfl

theorem valueCount_erasedValue (value : Option JsonValue) :
    valueCount (erasedValue value) = valueCount value := List.length_replicate

section Tree

variable (R : Rendering) (find : Lookup) (columns : List ColumnCatalogEntry)

theorem leafPieces_erased (leaf : LeafPredicate) :
    leafPieces R find columns { leaf with value := erasedValue leaf.value } =
      leafPieces R find columns leaf := by
  have hlength : (valueStrings R (erasedValue leaf.value)).length =
      (valueStrings R leaf.value).length := by
    rw [length_valueStrings, length_valueStrings, valueCount_erasedValue]
  unfold leafPieces
  cases find leaf.column columns with
  | none => rfl
  | some column =>
      cases sqlOperator leaf.op with
      | none => rfl
      | some op => exact congrArg (fun count ↦ [op.piece column.column count]) hlength

mutual

theorem piecesOf_erased : ∀ p : PredicateAst,
    piecesOf R find columns (erased p) = piecesOf R find columns p
  | .compound and or not => by
      rw [erased, piecesOf, piecesOf, groupsOf_erased and, groupsOf_erased or, notPieces_erased not]
  | .leaf leaf => by
      rw [erased, piecesOf, piecesOf]
      exact leafPieces_erased R find columns leaf

theorem groupsOf_erased : ∀ ps : List PredicateAst,
    groupsOf R find columns (erasedAll ps) = groupsOf R find columns ps
  | [] => by rw [erasedAll]
  | p :: ps => by rw [erasedAll, groupsOf, groupsOf, piecesOf_erased p, groupsOf_erased ps]

theorem notPieces_erased : ∀ p : Option PredicateAst,
    notPieces R find columns (erasedNot p) = notPieces R find columns p
  | none => by rw [erasedNot]
  | some p => by rw [erasedNot, notPieces, notPieces, piecesOf_erased p]

end

variable (manifest : DatasetManifest) (request : DatasetQueryRequest)

theorem axisPieces_map (asked : Option Text) (role : FieldRole) (symbol : String) :
    axisPieces find manifest columns (asked.map fun _ ↦ []) role symbol =
      axisPieces find manifest columns asked role symbol := by
  cases asked with
  | none => rfl
  | some value =>
      unfold axisPieces
      cases axisColumn find manifest columns role with
      | none => rfl
      | some column => rfl

theorem planPieces_shape : planPieces R find manifest columns request.shape =
    planPieces R find manifest columns request := by
  have hfilter : filterPieces R find columns request.shape =
      filterPieces R find columns request := by
    show (request.filter.map erased).elim [] (piecesOf R find columns) =
      request.filter.elim [] (piecesOf R find columns)
    cases request.filter with
    | none => rfl
    | some p => exact piecesOf_erased R find columns p
  have haxes : requestPieces find manifest columns request.shape =
      requestPieces find manifest columns request := by
    unfold requestPieces
    exact congrArg₂ (· ++ ·) (congrArg₂ (· ++ ·) (axisPieces_map find columns manifest _ _ _)
      (axisPieces_map find columns manifest _ _ _)) (axisPieces_map find columns manifest _ _ _)
  rw [planPieces, planPieces, haxes, hfilter]

theorem planParts_shape : planParts R find manifest columns request.shape =
    planParts R find manifest columns request := by
  have hselected : selectedNames R find manifest columns request.shape =
      selectedNames R find manifest columns request := rfl
  have hasOf : request.shape.asOf = request.asOf := rfl
  rw [planParts, planParts, planPieces_shape, hselected, hasOf]

end Tree

/-! ## Plans of one shape -/

section Plan

variable (R : Rendering) {manifest : DatasetManifest} {columns : List ColumnCatalogEntry}
  {operators : List OperatorCatalogEntry} {request request' : DatasetQueryRequest}
  {plan plan' : QueryPlan}

/-- Accepted requests of one shape have one SQL, with bindings at the same positions. -/
theorem planDatasetQuery_of_shape (h : planDatasetQuery R manifest columns operators request = .ok plan)
    (h' : planDatasetQuery R manifest columns operators request' = .ok plan')
    (hshape : request.shape = request'.shape) :
    plan.sql = plan'.sql ∧
      ∀ key, (plan.bindings.get? key).isSome ↔ (plan'.bindings.get? key).isSome := by
  obtain ⟨compiled, hplanned⟩ := exists_planned h
  obtain ⟨compiled', hplanned'⟩ := exists_planned h'
  have hsql : plan.sql = plan'.sql := by
    rw [hplanned.sql_eq, hplanned'.sql_eq, ← planParts_shape, hshape, planParts_shape]
  refine ⟨hsql, fun key ↦ ?_⟩
  rw [(planDatasetQuery_binds R h).1, (planDatasetQuery_binds R h').1, hsql]

end Plan

/-- The filter of one comparison with a value. -/
def oneComparison (value : String) : PredicateAst :=
  .leaf ⟨"A".toList, "eq".toList, some (.string value.toList)⟩

theorem planDatasetQuery_of_shape_oneComparison :
    ∃ plan plan', planDatasetQuery asciiRendering (exampleManifest ["A"]) (exampleColumns ["A"])
        builtInOperatorCatalog (exampleRequest ["A"] (oneComparison "x")) = .ok plan ∧
      planDatasetQuery asciiRendering (exampleManifest ["A"]) (exampleColumns ["A"])
        builtInOperatorCatalog (exampleRequest ["A"] (oneComparison "' OR '1")) = .ok plan' ∧
      plan.sql = plan'.sql := by
  have hsql : ∀ value ∈ ["x", "' OR '1"], ((planDatasetQuery asciiRendering
      (exampleManifest ["A"]) (exampleColumns ["A"]) builtInOperatorCatalog
        (exampleRequest ["A"] (oneComparison value))).map fun _ ↦ ()).toOption = some () := by
    unfold planDatasetQuery planWith
    rw [sorted_exampleColumns]
    decide +kernel
  obtain ⟨plan, hplan, -⟩ := exists_ok_of_map (hsql "x" (by decide))
  obtain ⟨plan', hplan', -⟩ := exists_ok_of_map (hsql "' OR '1" (by decide))
  exact ⟨plan, plan', hplan, hplan',
    (planDatasetQuery_of_shape asciiRendering hplan hplan' rfl).1⟩

end FrankenSnowflake.Catalog
