import FrankenSnowflake.Catalog.Predicate
import FrankenSnowflake.Core.Guardrails

/-!
# The dataset planner

A request for a dataset becomes one `SELECT` whose values are bindings.  Names of
columns are looked up among the columns of the dataset; every check is made before
any text is written.
-/

namespace FrankenSnowflake.Catalog

open Foundation Guardrails

/-! ## Requests and plans -/

structure DatasetQueryRequest where
  datasetId : Text
  select : List Text
  entity : Option Text
  «from» : Option Text
  «to» : Option Text
  asOf : Option Text
  filter : Option PredicateAst
  limit : Option Nat
  exportMode : Bool
  confirmationToken : Option Text
  warehouse : Option Text
  profileFingerprint : Text
  commandId : Text
  traceId : Text

inductive PlanMode where
  | dataset
  | rawSql
deriving DecidableEq, Repr

/-- A typed positional binding. -/
structure TypedBinding where
  bindingType : Text
  value : Text
deriving DecidableEq, Repr

/-- Guardrails attached to every plan. -/
structure PlanGuardrails where
  statementTimeoutSeconds : Nat
  resultRowCap : Nat
  resultByteCap : Nat
  queryTag : Text
deriving DecidableEq, Repr

structure PlanWarning where
  code : Text
  message : Text
deriving DecidableEq, Repr

structure PredicatePushdownPlan where
  projectedColumns : Nat
  axisFilters : Nat
  predicateFilters : Nat
  allPredicatesPushedDown : Bool
deriving DecidableEq, Repr

structure QueryPlan where
  planId : Text
  mode : PlanMode
  sql : Text
  bindings : SortedMap Text TypedBinding
  guardrails : PlanGuardrails
  pushdown : PredicatePushdownPlan
  warnings : List PlanWarning
deriving DecidableEq

structure PlanRefusal where
  code : Text
  message : Text
  didYouMean : List Text
deriving DecidableEq, Repr

def PlanRefusal.ofPredicate (refusal : PredicateRefusal) : PlanRefusal :=
  ⟨refusal.code.stableCode.toList, refusal.message, refusal.didYouMean⟩

/-! ## Texts -/

/-- `values.join(separator)`. -/
def join (separator : Text) (values : List Text) : Text := separator.intercalate values

/-- Quote one identifier part; embedded quotes are doubled. -/
def quoteIdentifier (identifier : Text) : Text :=
  '"' :: (identifier.flatMap (fun c ↦ if c = '"' then ['"', '"'] else [c]) ++ ['"'])

def quoteQualifiedObject (database schema object : Text) : Text :=
  join ".".toList [quoteIdentifier database, quoteIdentifier schema, quoteIdentifier object]

def escapeSnowflakeLiteral (value : Text) : Text :=
  value.flatMap fun ch ↦
    if ch = '\\' then ['\\', '\\'] else if ch = '\'' then ['\'', '\''] else [ch]

def timeTravelTimestampLiteral (value : Text) : Text :=
  '\'' :: (escapeSnowflakeLiteral value ++ "'::TIMESTAMP_TZ".toList)

/-! ## Bindings -/

def isIntegerLiteral (value : Text) : Bool :=
  let digits := if value.head? = some '-' then value.tail else value
  !digits.isEmpty && digits.all Char.isDigit

/-- The binding type of a value that is compared with a column of a class. -/
def sqlApiBindingType (dtype : DtypeClass) (value : Text) : Text :=
  if dtype = .number ∧ isIntegerLiteral value then "FIXED".toList
  else if dtype = .boolean ∧
      (Ascii.lower value = "true".toList ∨ Ascii.lower value = "false".toList) then
    "BOOLEAN".toList
  else "TEXT".toList

/-- Bindings by their position, and the next position. -/
structure Binder where
  bindings : SortedMap Text TypedBinding
  nextBinding : Nat

def Binder.new : Binder := ⟨.empty, 1⟩

/-- Bind a value at the next position; its placeholder is a question mark. -/
def pushBinding (b : Binder) (dtype : DtypeClass) (value : Text) : Text × Binder :=
  let bindingType := sqlApiBindingType dtype value
  let value := if bindingType = "BOOLEAN".toList then Ascii.lower value else value
  ("?".toList,
    ⟨b.bindings.insert (Nat.toDigits 10 b.nextBinding) ⟨bindingType, value⟩, b.nextBinding + 1⟩)

/-- Bind values, one after the other. -/
def pushBindings (b : Binder) (dtype : DtypeClass) : List Text → List Text × Binder
  | [] => ([], b)
  | value :: values =>
      let first := pushBinding b dtype value
      let rest := pushBindings first.2 dtype values
      (first.1 :: rest.1, rest.2)

/-! ## Checks -/

/-- The columns of a dataset, in ordinal order. -/
def sortedDatasetColumns (datasetId : Text) (columns : List ColumnCatalogEntry) :
    List ColumnCatalogEntry :=
  columnsForDataset datasetId columns

section Planning

variable (R : Rendering)

/-- The first column with the normalised identifier of a name. -/
def findColumnInRefs : Lookup := fun column columns ↦
  columns.find? fun candidate ↦
    normalizeIdentifier R.toLowercase candidate.column = normalizeIdentifier R.toLowercase column

variable (find : Lookup) (manifest : DatasetManifest) (columns : List ColumnCatalogEntry)
  (operators : List OperatorCatalogEntry) (request : DatasetQueryRequest)

/-- The projection, and the refusals of names that are no columns. -/
def resolveProjection : List ColumnCatalogEntry × List PlanRefusal :=
  if request.select.isEmpty then
    let projection := manifest.fields.filterMap fun field ↦ find field.column columns
    (if projection.isEmpty then columns else projection, [])
  else
    (request.select.filterMap fun requested ↦ find requested columns,
      (request.select.filter fun requested ↦ (find requested columns).isNone).map fun requested ↦
        { code := "FSNOW_COLUMN_UNKNOWN".toList
          message := "unknown projection column ".toList ++ R.debug requested
          didYouMean := didYouMeanColumns R requested columns })

def validateAxis (role : FieldRole) (roleName : Text) : List PlanRefusal :=
  match manifest.fieldByRole role with
  | none =>
      [{ code := "FSNOW_COLUMN_UNKNOWN".toList
         message := "dataset has no ".toList ++ roleName ++ " field".toList
         didYouMean := [] }]
  | some field =>
      if (find field.column columns).isSome then []
      else
        [{ code := "FSNOW_COLUMN_UNKNOWN".toList
           message := roleName ++ " field ".toList ++ R.debug field.column ++
            " is absent from column catalog".toList
           didYouMean := [] }]

def validateAxes : List PlanRefusal :=
  (if request.entity.isSome then
      validateAxis R find manifest columns .entityKey "entity_key".toList
    else []) ++
  (if request.«from».isSome ∨ request.«to».isSome then
      validateAxis R find manifest columns .timeIndex "time_index".toList
    else []) ++
  if request.asOf.isSome ∧ (manifest.fieldByRole .knownAt).isNone ∧
      (manifest.fieldByRole .timeIndex).isNone then
    [{ code := "FSNOW_AS_OF_UNSUPPORTED".toList
       message := "as_of requires a known_at or time_index field".toList
       didYouMean := [] }]
  else []

def enforceInteractiveRowPolicy (effectiveLimit manifestMaxRowsWithoutExport : Nat)
    (exportMode : Bool) (confirmationToken : Option Text) : List PlanRefusal :=
  let interactiveCap := min manifestMaxRowsWithoutExport defaultMaxResultRows
  (if exportMode = false ∧ confirmationToken = none ∧ interactiveCap < effectiveLimit then
    [{ code := "FSNOW_RESULT_TOO_LARGE".toList
       message := "limit ".toList ++ Nat.toDigits 10 effectiveLimit ++
        " exceeds interactive row cap ".toList ++ Nat.toDigits 10 interactiveCap ++
        "; use export mode, a narrower limit, or confirmation".toList
       didYouMean := [] }]
  else []) ++
  if manifestMaxRowsWithoutExport < effectiveLimit ∧ exportMode = false then
    [{ code := "FSNOW_RESULT_TOO_LARGE".toList
       message := "limit ".toList ++ Nat.toDigits 10 effectiveLimit ++
        " exceeds max_rows_without_export ".toList ++
        Nat.toDigits 10 manifestMaxRowsWithoutExport
       didYouMean := [] }]
  else []

/-- Every refusal of a request, and the projection. -/
def checkRequest : List ColumnCatalogEntry × List PlanRefusal :=
  let projection := resolveProjection R find manifest columns request
  let predicates : List PlanRefusal :=
    match request.filter with
    | none => []
    | some predicate =>
        match validatePredicate R find columns operators predicate with
        | .ok () => []
        | .error refusals => refusals.map PlanRefusal.ofPredicate
  (projection.1,
    projection.2 ++ validateAxes R find manifest columns request ++ predicates ++
      enforceInteractiveRowPolicy (request.limit.getD manifest.defaultLimit)
        manifest.maxRowsWithoutExport request.exportMode request.confirmationToken)

/-! ## Axis filters -/

def axisColumn (role : FieldRole) : Option ColumnCatalogEntry :=
  (manifest.fieldByRole role).bind fun field ↦ find field.column columns

/-- The comparison of an axis with a value, if both are there. -/
def axisFilter (value : Option Text) (role : FieldRole) (symbol : Text) (b : Binder) :
    List Text × Binder :=
  match value, axisColumn find manifest columns role with
  | some value, some column =>
      let placeholder := pushBinding b column.dtypeClass value
      ([quoteIdentifier column.column ++ " ".toList ++ symbol ++ " ".toList ++ placeholder.1],
        placeholder.2)
  | _, _ => ([], b)

def addAxisFilters (b : Binder) : List Text × Binder :=
  let entity := axisFilter find manifest columns request.entity .entityKey "=".toList b
  let start := axisFilter find manifest columns request.«from» .timeIndex ">=".toList entity.2
  let stop := axisFilter find manifest columns request.«to» .timeIndex "<=".toList start.2
  (entity.1 ++ start.1 ++ stop.1, stop.2)

/-! ## Predicates -/

/-- The operators that the compiler knows. -/
inductive SqlOperator where
  | compare (symbol : String)
  | between
  | «in»
  | isNull
  | isNotNull
  | contains
deriving DecidableEq, Repr

def sqlOperators : List (String × SqlOperator) :=
  [("eq", .compare "="), ("neq", .compare "!="), ("lt", .compare "<"), ("lte", .compare "<="),
    ("gt", .compare ">"), ("gte", .compare ">="), ("between", .between), ("in", .in),
    ("is_null", .isNull), ("is_not_null", .isNotNull), ("contains", .contains)]

def sqlOperator (op : Text) : Option SqlOperator :=
  (sqlOperators.find? fun entry ↦ entry.1.toList = op).map Prod.snd

structure CompiledPredicate where
  sql : Text
  leafCount : Nat
deriving DecidableEq, Repr

def valueToString : JsonValue → Text
  | .null => "null".toList
  | .bool true => "true".toList
  | .bool false => "false".toList
  | .number n => R.display (.number n)
  | .string s => s
  | .array items => R.display (.array items)
  | .object entries => R.display (.object entries)

def valueStrings : Option JsonValue → List Text
  | none => []
  | some (.array values) => values.map (valueToString R)
  | some value => [valueToString R value]

def valueAt (values : List Text) (index : Nat) : Text := values[index]?.getD []

def firstValue (values : List Text) : Text := valueAt values 0

/-- The comparison of a column. -/
def compileOperator (column : ColumnCatalogEntry) (values : List Text) (b : Binder) :
    SqlOperator → Text × Binder
  | .compare symbol =>
      let placeholder := pushBinding b column.dtypeClass (firstValue values)
      (quoteIdentifier column.column ++ " ".toList ++ symbol.toList ++ " ".toList ++
        placeholder.1, placeholder.2)
  | .between =>
      let left := pushBinding b column.dtypeClass (valueAt values 0)
      let right := pushBinding left.2 column.dtypeClass (valueAt values 1)
      (quoteIdentifier column.column ++ " BETWEEN ".toList ++ left.1 ++ " AND ".toList ++ right.1,
        right.2)
  | .in =>
      let placeholders := pushBindings b column.dtypeClass values
      (quoteIdentifier column.column ++ " IN (".toList ++ join ", ".toList placeholders.1 ++
        ")".toList, placeholders.2)
  | .isNull => (quoteIdentifier column.column ++ " IS NULL".toList, b)
  | .isNotNull => (quoteIdentifier column.column ++ " IS NOT NULL".toList, b)
  | .contains =>
      let placeholder := pushBinding b column.dtypeClass (firstValue values)
      ("POSITION(".toList ++ placeholder.1 ++ " IN ".toList ++ quoteIdentifier column.column ++
        ") > 0".toList, placeholder.2)

def compileLeaf (leaf : LeafPredicate) (b : Binder) :
    Except PlanRefusal (CompiledPredicate × Binder) :=
  match find leaf.column columns with
  | none =>
      .error
        { code := "FSNOW_COLUMN_UNKNOWN".toList
          message := "unknown predicate column ".toList ++ R.debug leaf.column
          didYouMean := didYouMeanColumns R leaf.column columns }
  | some column =>
      match sqlOperator leaf.op with
      | none =>
          .error
            { code := "FSNOW_FILTER_OPERATOR_UNSUPPORTED".toList
              message := "operator ".toList ++ R.debug leaf.op ++
                " is present in the catalog but unsupported by the SQL compiler".toList
              didYouMean := [] }
      | some operator =>
          let compiled := compileOperator column (valueStrings R leaf.value) b operator
          .ok (⟨compiled.1, 1⟩, compiled.2)

/-- Compiled children in parentheses, if there are any. -/
def joinCompiled (joiner : Text) (compiled : List CompiledPredicate) : List CompiledPredicate :=
  if compiled.isEmpty then []
  else
    [⟨"(".toList ++ join joiner (compiled.map (·.sql)) ++ ")".toList,
      (compiled.map (·.leafCount)).sum⟩]

/-- The parts of a compound, if there are any. -/
def joinParts (parts : List CompiledPredicate) : Option CompiledPredicate :=
  if parts.isEmpty then none
  else some ⟨join " AND ".toList (parts.map (·.sql)), (parts.map (·.leafCount)).sum⟩

mutual

/-- The SQL of a tree; a compound without leaves has none. -/
def compilePredicate : PredicateAst → Binder →
    Except PlanRefusal (Option CompiledPredicate × Binder)
  | .compound and or not, b => do
      let and ← compileMany and b
      let or ← compileMany or and.2
      let not ← compileNot not or.2
      return (joinParts (joinCompiled " AND ".toList and.1 ++ joinCompiled " OR ".toList or.1 ++
        not.1), not.2)
  | .leaf leaf, b => do
      let compiled ← compileLeaf R find columns leaf b
      return (some compiled.1, compiled.2)

def compileMany : List PredicateAst → Binder →
    Except PlanRefusal (List CompiledPredicate × Binder)
  | [], b => return ([], b)
  | predicate :: predicates, b => do
      let first ← compilePredicate predicate b
      let rest ← compileMany predicates first.2
      return (first.1.toList ++ rest.1, rest.2)

def compileNot : Option PredicateAst → Binder →
    Except PlanRefusal (List CompiledPredicate × Binder)
  | none, b => return ([], b)
  | some predicate, b => do
      let compiled ← compilePredicate predicate b
      return (compiled.1.toList.map fun c ↦ ⟨"NOT (".toList ++ c.sql ++ ")".toList, c.leafCount⟩,
        compiled.2)

end

mutual

def countPredicateLeaves : PredicateAst → Nat
  | .leaf _ => 1
  | .compound and or not => countLeaves and + countLeaves or + countLeavesNot not

def countLeaves : List PredicateAst → Nat
  | [] => 0
  | predicate :: predicates => countPredicateLeaves predicate + countLeaves predicates

def countLeavesNot : Option PredicateAst → Nat
  | none => 0
  | some predicate => countPredicateLeaves predicate

end

end Planning

/-! ## Guardrails of a plan -/

def datasetStatementTimeoutSeconds : Nat := 60

def planRefusalFromCoreError (error : SnowflakeError) : PlanRefusal where
  code :=
    match error.code with
    | .mutationRefused | .multiStatementRefused => "FSNOW_RAW_SQL_UNSAFE".toList
    | .safetyLimitExceeded => "FSNOW_RESULT_TOO_LARGE".toList
    | .warehouseRefused => "FSNOW_WAREHOUSE_REFUSED".toList
    | .usageError => "FSNOW_QUERY_GUARDRAIL".toList
  message := error.message.toList
  didYouMean := []

/-- The guardrails of a plan and their warnings; a row cap is also the limit on rows. -/
def plannerGuardrails (sql : Text) (resultRowCap : Nat) (exportMode : Bool)
    (warehouse : Option Text) (queryTag : Text) :
    Except PlanRefusal (PlanGuardrails × List PlanWarning) :=
  let limits : QuerySafetyLimits :=
    { maxResultRows := resultRowCap
      statementTimeoutSeconds := datasetStatementTimeoutSeconds
      requireWarehouse := false }
  let guard : QueryPlanGuard :=
    { sql
      statementTimeoutSeconds := some datasetStatementTimeoutSeconds
      resultRowCap := some resultRowCap
      resultByteCap := some defaultMaxResultBytes
      warehouse
      exportMode }
  match enforceQuerySafety guard limits with
  | .error error => .error (planRefusalFromCoreError error)
  | .ok bounded =>
      .ok
        ({ statementTimeoutSeconds := bounded.statementTimeoutSeconds
           resultRowCap := bounded.resultRowCap
           resultByteCap := bounded.resultByteCap
           queryTag },
          bounded.warnings.map fun warning ↦ ⟨warning.code.toList, warning.message.toList⟩)

/-! ## Plan ids -/

def fnv1a64 (bytes : List UInt8) : UInt64 :=
  bytes.foldl (fun hash byte ↦ (hash ^^^ byte.toUInt64) * 0x100000001b3) 0xcbf29ce484222325

/-- `plan:{:016x}` of the hash of a normalised plan. -/
def formatPlanId (normalized : Text) : Text :=
  let digits := Nat.toDigits 16 (fnv1a64 (Utf8.encode normalized)).toNat
  "plan:".toList ++ List.replicate (16 - digits.length) '0' ++ digits

/-- One binding of a normalised plan. -/
def bindingText (entry : Text × TypedBinding) : Text :=
  entry.1 ++ ":".toList ++ entry.2.bindingType ++ "=".toList ++ entry.2.value

/-- The guardrails and the bindings of a normalised plan, field by field. -/
def guardedFields (bindings : SortedMap Text TypedBinding) (guardrails : PlanGuardrails) :
    List Text :=
  [Nat.toDigits 10 guardrails.statementTimeoutSeconds, Nat.toDigits 10 guardrails.resultRowCap,
    Nat.toDigits 10 guardrails.resultByteCap, guardrails.queryTag] ++
    bindings.entries.map bindingText

/-- Fields behind a text, each after a bar. -/
def barred (fields : List Text) : Text := fields.flatMap fun field ↦ '|' :: field

/-- The normalised plan that is hashed. -/
def normalizedPlan (sql : Text) (bindings : SortedMap Text TypedBinding)
    (guardrails : PlanGuardrails) (manifest : DatasetManifest) (request : DatasetQueryRequest) :
    Text :=
  sql ++ barred ([request.profileFingerprint, manifest.id, request.«from».getD [],
    request.«to».getD [], request.asOf.getD []] ++ guardedFields bindings guardrails)

def planId (sql : Text) (bindings : SortedMap Text TypedBinding) (guardrails : PlanGuardrails)
    (manifest : DatasetManifest) (request : DatasetQueryRequest) : Text :=
  formatPlanId (normalizedPlan sql bindings guardrails manifest request)

/-! ## Planning -/

/-- The tag of a query: its trace, else its command, else the planner's name. -/
def tagOr (planner : String) (traceId commandId : Text) : Text :=
  if !traceId.isEmpty then traceId
  else if !commandId.isEmpty then commandId
  else planner.toList

def queryTag (request : DatasetQueryRequest) : Text :=
  tagOr "franken-snowflake.query-plan" request.traceId request.commandId

def warningsForRequest (request : DatasetQueryRequest) : List PlanWarning :=
  if request.limit.isSome then []
  else
    [⟨"FSNOW_UNCONSTRAINED_QUERY_ADVISORY".toList,
      "no explicit limit supplied; manifest default_limit was applied".toList⟩]

section Planning

variable (R : Rendering) (find : Lookup) (manifest : DatasetManifest)
  (columns : List ColumnCatalogEntry) (operators : List OperatorCatalogEntry)
  (request : DatasetQueryRequest)

/-- The SQL of the filter, if it has any. -/
def compileFilter (b : Binder) : Except PlanRefusal (Option CompiledPredicate × Binder) :=
  match request.filter with
  | none => .ok (none, b)
  | some predicate => compilePredicate R find columns predicate b

/-- The text up to the conditions. -/
def selectFrom (projection : List ColumnCatalogEntry) : Text :=
  "SELECT ".toList ++ join ", ".toList (projection.map fun column ↦ quoteIdentifier column.column) ++
    " FROM ".toList ++ quoteQualifiedObject manifest.database manifest.schema manifest.object ++
    match request.asOf with
    | none => []
    | some asOf => " AT(TIMESTAMP => ".toList ++ timeTravelTimestampLiteral asOf ++ ")".toList

def whereText (clauses : List Text) : Text :=
  if clauses.isEmpty then [] else " WHERE ".toList ++ join " AND ".toList clauses

/-- The row limit of a request. -/
def effectiveLimit : Nat := request.limit.getD manifest.defaultLimit

/-- The text and the bindings of a checked request, and what was pushed down. -/
def assemble (datasetColumns projection : List ColumnCatalogEntry) :
    Except PlanRefusal (Text × SortedMap Text TypedBinding × PredicatePushdownPlan) := do
  let axes := addAxisFilters find manifest datasetColumns request .new
  let compiled ← compileFilter R find datasetColumns request axes.2
  let limit := pushBinding compiled.2 .number (Nat.toDigits 10 (effectiveLimit manifest request))
  let predicateFilters := request.filter.elim 0 countPredicateLeaves
  return (selectFrom manifest request projection ++
      whereText (axes.1 ++ compiled.1.toList.map (·.sql)) ++ " LIMIT ".toList ++ limit.1,
    limit.2.bindings,
    { projectedColumns := projection.length
      axisFilters := axes.1.length
      predicateFilters
      allPredicatesPushedDown := compiled.1.elim 0 (·.leafCount) = predicateFilters })

/-- Plan a dataset-mode query, with a way to look up names. -/
def planWith : Except (List PlanRefusal) QueryPlan :=
  if manifest.id ≠ request.datasetId then
    .error
      [{ code := "FSNOW_DATASET_UNKNOWN".toList
         message := "unknown dataset ".toList ++ R.debug request.datasetId
         didYouMean := [manifest.id] }]
  else
    let datasetColumns := sortedDatasetColumns manifest.id columns
    let checked := checkRequest R find manifest datasetColumns operators request
    if !checked.2.isEmpty then .error checked.2
    else
      match assemble R find manifest request datasetColumns checked.1 with
      | .error refusal => .error [refusal]
      | .ok (sql, bindings, pushdown) =>
          match plannerGuardrails sql (effectiveLimit manifest request) request.exportMode
              request.warehouse (queryTag request) with
          | .error refusal => .error [refusal]
          | .ok (guardrails, warnings) =>
              .ok
                { planId := planId sql bindings guardrails manifest request
                  mode := .dataset
                  sql
                  bindings
                  guardrails
                  pushdown
                  warnings := warnings ++ warningsForRequest request }

/-- Plan a dataset-mode query. -/
def planDatasetQuery : Except (List PlanRefusal) QueryPlan :=
  planWith R (findColumnInRefs R) manifest columns operators request

end Planning

/-! ## A small dataset -/

/-- A rendering that lowers ASCII letters. -/
def asciiRendering : Rendering where
  toLowercase c := [c.toLower]
  debug text := '"' :: (text ++ ['"'])
  display _ := []

/-- The dataset `t` of the object `D.S.T`, with these features. -/
def exampleManifest (fields : List String) : DatasetManifest where
  id := "t".toList
  profile := "p".toList
  database := "D".toList
  schema := "S".toList
  object := "T".toList
  kind := .table
  rightsClass := .internal
  defaultLimit := 10
  maxRowsWithoutExport := 10
  approxRowCount := none
  bytes := none
  description := none
  provenance := ⟨.fixture, .fixture, [], [], [], [], [], [], []⟩
  fields := fields.map fun name ↦ ⟨name.toList, .feature, .string, true, .confirmed⟩

/-- Text columns of the dataset, in this order. -/
def exampleColumns (names : List String) : List ColumnCatalogEntry :=
  (names.zipIdx 1).map fun entry ↦
    { datasetId := "t".toList
      database := "D".toList
      schema := "S".toList
      object := "T".toList
      column := entry.1.toList
      ordinal := entry.2
      snowflakeType := "TEXT".toList
      dtypeClass := .string
      nullable := true
      precision := none
      scale := none
      length := none
      aliases := []
      comment := none
      tags := []
      provenance := none }

/-- A request for columns of the dataset. -/
def exampleRequest (select : List String) (filter : Option PredicateAst) :
    DatasetQueryRequest where
  datasetId := "t".toList
  select := select.map String.toList
  entity := none
  «from» := none
  «to» := none
  asOf := none
  filter
  limit := some 5
  exportMode := false
  confirmationToken := none
  warehouse := none
  profileFingerprint := "p".toList
  commandId := "c".toList
  traceId := "tr".toList

theorem sorted_exampleColumns (fields names : List String) :
    sortedDatasetColumns (exampleManifest fields).id (exampleColumns names) =
      exampleColumns names := by
  have hfilter : (exampleColumns names).filter (·.datasetId = (exampleManifest fields).id) =
      exampleColumns names := by
    rw [List.filter_eq_self]
    intro column hcolumn
    obtain ⟨entry, -, rfl⟩ := List.mem_map.mp hcolumn
    rfl
  rw [sortedDatasetColumns, columnsForDataset, hfilter]
  refine List.mergeSort_of_pairwise (List.pairwise_map.mpr ?_)
  rw [List.pairwise_iff_getElem]
  intro i j hi hj hij
  simpa using hij.le

end FrankenSnowflake.Catalog
