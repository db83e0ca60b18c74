import FrankenSnowflake.Catalog.PlanMeaning

/-!
# The SQL of a plan

The text of an accepted plan is the text of parts, so it lexes to these parts: the
identifiers and the literal are read back as they were given, and every other value
is a numbered binding.
-/

namespace FrankenSnowflake.Catalog

open Foundation SqlLexer SqlCondition

/-! ## Parts of a statement -/

def identifierParts (xs : List Text) : List SqlPart :=
  commaSpace.intercalate (xs.map fun x ↦ [.identifier x])

/-- The columns between `SELECT` and `FROM`. -/
def projectionParts (projection : List Text) : List SqlPart :=
  if projection.isEmpty then [.gap] else .blank :: (identifierParts projection ++ [.blank])

def objectParts (database schema object : Text) : List SqlPart :=
  [.keyword .from, .blank, .identifier database, .mark .dot, .identifier schema, .mark .dot,
    .identifier object]

def asOfParts : Option Text → List SqlPart
  | none => []
  | some asOf =>
      [.blank, .keyword .at, .mark .open, .keyword .timestamp, .blank, .mark .equals,
        .mark .greater, .blank, .literal asOf, .mark .colon, .mark .colon, .keyword .timestampTz,
        .mark .close]

/-- The parts up to the conditions. -/
def selectParts (projection : List Text) (manifest : DatasetManifest) (asOf : Option Text) :
    List SqlPart :=
  .keyword .select :: (projectionParts projection ++
    (objectParts manifest.database manifest.schema manifest.object ++ asOfParts asOf))

def whereParts (ps : List Piece) : List SqlPart :=
  match allPieces ps with
  | none => []
  | some p => .blank :: .keyword .where :: .blank :: p.parts

def limitParts : List SqlPart := [.blank, .keyword .limit, .blank, .placeholder]

/-! ## Texts -/

theorem partsText_identifierParts (xs : List Text) :
    partsText (identifierParts xs) = join ", ".toList (xs.map quoteIdentifier) := by
  rw [identifierParts, partsText_intercalate, List.map_map, join]
  congr 1
  refine List.map_congr_left fun x _ ↦ ?_
  exact List.append_nil _

theorem partsText_projectionParts (projection : List Text) :
    partsText (projectionParts projection) =
      ' ' :: (join ", ".toList (projection.map quoteIdentifier) ++ [' ']) := by
  cases projection with
  | nil => rfl
  | cons x xs =>
      have hparts : projectionParts (x :: xs) = .blank :: (identifierParts (x :: xs) ++ [.blank]) :=
        rfl
      rw [hparts, partsText_cons, partsText_append, partsText_identifierParts]
      rfl

theorem partsText_objectParts (database schema object : Text) :
    partsText (objectParts database schema object) =
      "FROM ".toList ++ quoteQualifiedObject database schema object := by
  have hobject : quoteQualifiedObject database schema object = quoteIdentifier database ++
      (['.'] ++ (quoteIdentifier schema ++ (['.'] ++ quoteIdentifier object))) := by
    rw [quoteQualifiedObject, join, List.intercalate_cons_cons, List.intercalate_cons_cons,
      List.intercalate_singleton, List.append_assoc, List.append_assoc]
    rfl
  rw [hobject]
  show "FROM".toList ++ ([' '] ++ (quoteIdentifier database ++ (['.'] ++ (quoteIdentifier schema ++
    (['.'] ++ (quoteIdentifier object ++ [])))))) = _
  rw [List.append_nil]
  rfl

theorem partsText_asOfParts (asOf : Text) : partsText (asOfParts (some asOf)) =
    " AT(TIMESTAMP => ".toList ++ timeTravelTimestampLiteral asOf ++ ")".toList := by
  have hliteral : timeTravelTimestampLiteral asOf = quoteLiteral asOf ++ "::TIMESTAMP_TZ".toList := by
    rw [timeTravelTimestampLiteral, quoteLiteral, List.cons_append, List.append_assoc]
    rfl
  rw [hliteral, List.append_assoc, List.append_assoc]
  rfl

def asOfText : Option Text → Text
  | none => []
  | some asOf => " AT(TIMESTAMP => ".toList ++ timeTravelTimestampLiteral asOf ++ ")".toList

theorem partsText_asOfParts' (asOf : Option Text) : partsText (asOfParts asOf) = asOfText asOf := by
  cases asOf with
  | none => rfl
  | some asOf => exact partsText_asOfParts asOf

theorem selectText_eq (columns object tail : Text) :
    "SELECT ".toList ++ columns ++ " FROM ".toList ++ object ++ tail =
      "SELECT".toList ++ (' ' :: (columns ++ [' ']) ++ (("FROM ".toList ++ object) ++ tail)) := by
  rw [List.append_assoc, List.append_assoc, List.append_assoc, List.append_assoc, List.cons_append,
    List.append_assoc]
  rfl

/-- The text up to the conditions is the text of its parts. -/
theorem selectFrom_parts (manifest : DatasetManifest) (request : DatasetQueryRequest)
    (projection : List ColumnCatalogEntry) : selectFrom manifest request projection =
      partsText (selectParts (projection.map (·.column)) manifest request.asOf) := by
  have hcolumns : (projection.map (·.column)).map quoteIdentifier =
      projection.map fun column ↦ quoteIdentifier column.column := List.map_map
  rw [selectParts, partsText_cons, partsText_append, partsText_append, partsText_projectionParts,
    partsText_objectParts, hcolumns, partsText_asOfParts']
  exact selectText_eq _ _ _

theorem whereText_eq (groups : List (List Piece)) :
    whereText ((groups.filterMap allPieces).map Piece.text) =
      partsText (whereParts groups.flatten) := by
  have hjoin := join_filterMap_allPieces groups
  rw [whereText, List.isEmpty_map, whereParts]
  cases hflat : groups.flatten with
  | nil =>
      rw [filterMap_allPieces_eq_nil.mpr hflat]
      rfl
  | cons p ps =>
      have hne : groups.filterMap allPieces ≠ [] := by
        rw [ne_eq, filterMap_allPieces_eq_nil, hflat]
        exact List.cons_ne_nil p ps
      rw [if_neg (by rw [List.isEmpty_iff]; exact hne), hjoin, hflat, ← text_allOf]
      rfl

/-! ## Axes -/

theorem isKnown_eq : SqlOperator.IsKnown (.compare "=") := ⟨"eq".toList, rfl⟩

theorem isKnown_gte : SqlOperator.IsKnown (.compare ">=") := ⟨"gte".toList, rfl⟩

theorem isKnown_lte : SqlOperator.IsKnown (.compare "<=") := ⟨"lte".toList, rfl⟩

section Axes

variable (find : Lookup) (manifest : DatasetManifest) (columns : List ColumnCatalogEntry)

/-- The piece of an axis that is asked for. -/
def axisPieces (value : Option Text) (role : FieldRole) (symbol : String) : List Piece :=
  match value, axisColumn find manifest columns role with
  | some value, some column =>
      [SqlOperator.piece column.column [value].length (.compare symbol)]
  | _, _ => []

def requestPieces (request : DatasetQueryRequest) : List Piece :=
  axisPieces find manifest columns request.entity .entityKey "=" ++
    axisPieces find manifest columns request.«from» .timeIndex ">=" ++
    axisPieces find manifest columns request.«to» .timeIndex "<="

variable {V : Type} (I : Interpretation V) (row : Text → V) (value : TypedBinding → V)

/-- What an axis says of a row. -/
def axisMeaning (asked : Option Text) (role : FieldRole) (symbol : String) : Truth :=
  match asked, axisColumn find manifest columns role with
  | none, _ => some true
  | some _, none => none
  | some asked, some column =>
      I.compare symbol (row column.column) (value (typedBinding column.dtypeClass asked))

/-- What the axes of a request say of a row. -/
def axesMeaning (request : DatasetQueryRequest) : Truth :=
  Truth.and
    (Truth.and (axisMeaning find manifest columns I row value request.entity .entityKey "=")
      (axisMeaning find manifest columns I row value request.«from» .timeIndex ">="))
    (axisMeaning find manifest columns I row value request.«to» .timeIndex "<=")

end Axes

section Axes

variable {find : Lookup} {manifest : DatasetManifest} {columns : List ColumnCatalogEntry}
  {asked : Option Text} {role : FieldRole} {symbol : String} {b : Binder}

theorem valid_axisPieces (h : SqlOperator.IsKnown (.compare symbol)) :
    ∀ p ∈ axisPieces find manifest columns asked role symbol, p.Valid .negation := by
  intro p hp
  unfold axisPieces at hp
  cases asked with
  | none => cases hp
  | some asked =>
      cases hcolumn : axisColumn find manifest columns role with
      | none =>
          rw [hcolumn] at hp
          cases hp
      | some column =>
          rw [hcolumn] at hp
          obtain rfl := List.mem_singleton.mp hp
          exact SqlOperator.valid_piece h _ _

/-- An axis is compiled as a leaf of its column would be. -/
theorem axisFilter_some {value : Text} {column : ColumnCatalogEntry}
    (hcolumn : axisColumn find manifest columns role = some column) :
    axisFilter find manifest columns (some value) role symbol.toList b =
      ([(compileOperator column [value] b (.compare symbol)).1],
        (compileOperator column [value] b (.compare symbol)).2) := by
  unfold axisFilter
  rw [hcolumn]
  rfl

theorem axisPieces_some {value : Text} {column : ColumnCatalogEntry}
    (hcolumn : axisColumn find manifest columns role = some column) :
    axisPieces find manifest columns (some value) role symbol =
      [SqlOperator.piece column.column [value].length (.compare symbol)] := by
  unfold axisPieces
  rw [hcolumn]

/-- An axis that is not asked for, or that has no column, is no filter. -/
theorem axisFilter_none (h : asked = none ∨ axisColumn find manifest columns role = none) :
    axisFilter find manifest columns asked role symbol.toList b = ([], b) ∧
      axisPieces find manifest columns asked role symbol = [] := by
  unfold axisFilter axisPieces
  rcases h with rfl | hcolumn
  · exact ⟨rfl, rfl⟩
  · rw [hcolumn]
    cases asked <;> exact ⟨rfl, rfl⟩

variable (find manifest columns asked role) in
/-- An axis has a value and a column, or it is no filter. -/
theorem asked_or_none : (∃ value column, asked = some value ∧
    axisColumn find manifest columns role = some column) ∨
      (asked = none ∨ axisColumn find manifest columns role = none) := by
  cases asked with
  | none => exact .inr (.inl rfl)
  | some value =>
      cases hcolumn : axisColumn find manifest columns role with
      | none => exact .inr (.inr rfl)
      | some column => exact .inl ⟨value, column, rfl, rfl⟩

theorem axisFilter_text (h : SqlOperator.IsKnown (.compare symbol)) :
    (axisFilter find manifest columns asked role symbol.toList b).1 =
      (axisPieces find manifest columns asked role symbol).map Piece.text := by
  obtain ⟨value, column, rfl, hcolumn⟩ | hnone := asked_or_none find manifest columns asked role
  · rw [axisFilter_some hcolumn, axisPieces_some hcolumn]
    exact congrArg (List.cons · []) (compileOperator_text h column [value] b)
  · obtain ⟨hfilter, hpieces⟩ := axisFilter_none hnone
    rw [hfilter, hpieces]
    rfl

theorem axisFilter_nextBinding (h : SqlOperator.IsKnown (.compare symbol)) :
    (axisFilter find manifest columns asked role symbol.toList b).2.nextBinding =
      b.nextBinding + paramsOf (axisPieces find manifest columns asked role symbol) := by
  obtain ⟨value, column, rfl, hcolumn⟩ | hnone := asked_or_none find manifest columns asked role
  · rw [axisFilter_some hcolumn, axisPieces_some hcolumn]
    exact compileOperator_nextBinding column [value] b h
  · obtain ⟨hfilter, hpieces⟩ := axisFilter_none hnone
    rw [hfilter, hpieces]
    rfl

theorem truthOf_axisPieces {V : Type} {I : Interpretation V} {row : Text → V}
    {value : TypedBinding → V} {params : Nat → V}
    (hasked : asked.isSome → (axisColumn find manifest columns role).isSome)
    (h : Bound params value b (axisFilter find manifest columns asked role symbol.toList b).2) :
    truthOf I row params b.nextBinding (axisPieces find manifest columns asked role symbol) =
      axisMeaning find manifest columns I row value asked role symbol := by
  unfold axisMeaning
  obtain ⟨v, column, rfl, hcolumn⟩ | hnone := asked_or_none find manifest columns asked role
  · rw [axisFilter_some hcolumn] at h
    rw [axisPieces_some hcolumn, hcolumn]
    exact (truthOf_singleton _ _).trans (eval_piece (.compare symbol) column [v] b h)
  · rw [(@axisFilter_none _ _ _ _ _ symbol b hnone).2]
    obtain rfl : asked = none := by
      rcases hnone with rfl | hcolumn
      · rfl
      · rw [hcolumn] at hasked
        cases asked with
        | none => rfl
        | some v => exact absurd (hasked rfl) Bool.false_ne_true
    rfl

end Axes

end FrankenSnowflake.Catalog
