import FrankenSnowflake.Catalog.StageLocation
import FrankenSnowflake.Foundation.Digits
import Mathlib.Data.List.Dedup

/-!
# The relation pass

The rows of the relation statements, folded into a snapshot: keys, stages, file
formats, relations and tags.  A foreign key is joined from two listings of
constraints, whose names are not unique.
-/

namespace FrankenSnowflake.Catalog

open Foundation Digits

attribute [local instance] lawfulBEq_text

/-! ## Rows -/

inductive RelationSource where
  | primaryKeys
  | tableConstraints
  | referentialConstraints
  | stages
  | fileFormats
  | externalTables
  | objectReferences
  | tagReferences
deriving DecidableEq, Repr

def RelationSource.asStr : RelationSource → Text
  | primaryKeys => "primary_keys".toList
  | tableConstraints => "table_constraints".toList
  | referentialConstraints => "referential_constraints".toList
  | stages => "stages".toList
  | fileFormats => "file_formats".toList
  | externalTables => "external_tables".toList
  | objectReferences => "object_references".toList
  | tagReferences => "tag_references".toList

/-- A row, by column names in upper case. -/
abbrev InformationSchemaRow : Type := SortedMap Text (Option Text)

def InformationSchemaRow.get (row : InformationSchemaRow) (key : Text) : Option Text :=
  (row.get? (Ascii.upper key)).join

/-- A completed statement: its column names and its rows. -/
structure CompletedStatement where
  columns : List Text
  rows : List (List (Option Text))
deriving DecidableEq, Repr

def rowFromValues (columns : List Text) (values : List (Option Text)) : InformationSchemaRow :=
  SortedMap.ofList (columns.zipIdx.map fun (column, index) ↦
    (Ascii.upper column, values[index]?.join))

def rowsFromCompleted (completed : CompletedStatement) : List InformationSchemaRow :=
  completed.rows.map (rowFromValues completed.columns)

structure RelationStatement where
  source : RelationSource
  view : Option ObjectRef
deriving DecidableEq, Repr

inductive RelationOutcome where
  | completed (completed : CompletedStatement)
  | failed (message : Text)
deriving DecidableEq, Repr

def nonEmpty (value : Option Text) : Option Text := value.filter (· ≠ [])

section Row

variable (row : InformationSchemaRow)

def objectAt (database schema name : String) : Option ObjectRef := do
  return ⟨← nonEmpty (row.get database.toList), ← nonEmpty (row.get schema.toList),
    ← nonEmpty (row.get name.toList)⟩

abbrev ConstraintId : Type := Text × Text × Text

def constraintId (catalog schema name : String) : Option ConstraintId := do
  return (← nonEmpty (row.get catalog.toList), ← nonEmpty (row.get schema.toList),
    ← nonEmpty (row.get name.toList))

end Row

/-- The distinct elements in order: what a `BTreeSet` lists. -/
def sortedSet {α : Type} [Ord α] [DecidableEq α] (xs : List α) : List α :=
  (xs.mergeSort fun x y ↦ (compare x y).isLE).dedup

theorem mem_sortedSet {α : Type} [Ord α] [DecidableEq α] {xs : List α} {x : α} :
    x ∈ sortedSet xs ↔ x ∈ xs := by
  rw [sortedSet, List.mem_dedup, List.mem_mergeSort]

/-! ## Keys, stages, formats and tags -/

/-- `str::parse::<u32>`. -/
def parseU32 (s : Text) : Option Nat :=
  (parseDigits (match s with | '+' :: rest => rest | s => s)).filter (· < 2 ^ 32)

/-- A row of `SHOW PRIMARY KEYS`: the table, the column with its place in the
key, and the constraint. -/
def primaryKeyRow (row : InformationSchemaRow) :
    Option (ObjectRef × (Nat × Text) × Option Text) := do
  let object ← objectAt row "DATABASE_NAME" "SCHEMA_NAME" "TABLE_NAME"
  let column ← nonEmpty (row.get "COLUMN_NAME".toList)
  let sequence := ((row.get "KEY_SEQUENCE".toList).bind parseU32).getD (2 ^ 32 - 1)
  return (object, (sequence, column), nonEmpty (row.get "CONSTRAINT_NAME".toList))

def primaryKeys (rows : List InformationSchemaRow) : List PrimaryKey :=
  let read := rows.filterMap primaryKeyRow
  (sortedSet (read.map Prod.fst)).map fun object ↦
    let rows := (read.filter (·.1 = object)).map Prod.snd
    { object := object
      columns := ((rows.map Prod.fst).mergeSort fun x y ↦
        x.1 < y.1 || (x.1 = y.1 && x.2 ≤ y.2)).map Prod.snd
      constraint := rows.findSome? Prod.snd }

def stageEntry (row : InformationSchemaRow) : Option StageEntry := do
  return { stage := ← objectAt row "STAGE_CATALOG" "STAGE_SCHEMA" "STAGE_NAME"
           stageType := nonEmpty (row.get "STAGE_TYPE".toList)
           url := nonEmpty (row.get "STAGE_URL".toList)
           region := nonEmpty (row.get "STAGE_REGION".toList)
           comment := nonEmpty (row.get "COMMENT".toList) }

def stageRelation (row : InformationSchemaRow) : Option CatalogRelation := do
  let stage ← objectAt row "STAGE_CATALOG" "STAGE_SCHEMA" "STAGE_NAME"
  let formatName ← (nonEmpty (row.get "FILE_FORMAT_NAME".toList)).or
    (nonEmpty (row.get "STAGE_FILE_FORMAT".toList))
  let fileFormat ← parseObjectPath formatName stage.database stage.schema
  return .stageUsesFileFormat stage fileFormat

def fileFormatEntry (row : InformationSchemaRow) : Option FileFormatEntry := do
  return { fileFormat := ←
             objectAt row "FILE_FORMAT_CATALOG" "FILE_FORMAT_SCHEMA" "FILE_FORMAT_NAME"
           formatType := nonEmpty (row.get "FILE_FORMAT_TYPE".toList)
           comment := nonEmpty (row.get "COMMENT".toList) }

def tagAssignment (row : InformationSchemaRow) : Option TagAssignment := do
  let column ←
    if (row.get "DOMAIN".toList).any fun domain ↦ Ascii.lower domain = "column".toList then
      (nonEmpty (row.get "COLUMN_NAME".toList)).map some
    else some none
  return { tag := ← objectAt row "TAG_DATABASE" "TAG_SCHEMA" "TAG_NAME"
           value := row.get "TAG_VALUE".toList
           object := ← objectAt row "OBJECT_DATABASE" "OBJECT_SCHEMA" "OBJECT_NAME"
           column := column }

def externalTableRelations (stages : List StageEntry) (row : InformationSchemaRow) :
    List CatalogRelation :=
  match objectAt row "TABLE_CATALOG" "TABLE_SCHEMA" "TABLE_NAME" with
  | none => []
  | some object =>
      let stage := (nonEmpty (row.get "LOCATION".toList)).bind fun location ↦
        stageForLocation location object stages
      let fileFormat := (nonEmpty (row.get "FILE_FORMAT_NAME".toList)).bind fun name ↦
        parseObjectPath name object.database object.schema
      (stage.map fun stage ↦ .usesStage object stage).toList ++
        (fileFormat.map fun fileFormat ↦ .usesFileFormat object fileFormat).toList

def viewRelation (view : ObjectRef) (row : InformationSchemaRow) : Option CatalogRelation := do
  let source : ObjectRef := ⟨← row.get "REFERENCED_DATABASE_NAME".toList,
    ← row.get "REFERENCED_SCHEMA_NAME".toList, ← row.get "REFERENCED_OBJECT_NAME".toList⟩
  if source = view then none
  else some (.viewDependsOn view source (row.get "REFERENCED_OBJECT_TYPE".toList))

/-! ## Foreign keys -/

/-- The type of a constraint row, in upper case. -/
def constraintType (row : InformationSchemaRow) : Text :=
  Ascii.upper ((row.get "CONSTRAINT_TYPE".toList).getD [])

/-- The constraint and the table of a row of `TABLE_CONSTRAINTS`. -/
def constraintTable (row : InformationSchemaRow) : Option (ConstraintId × ObjectRef) := do
  return (← constraintId row "CONSTRAINT_CATALOG" "CONSTRAINT_SCHEMA" "CONSTRAINT_NAME",
    ← objectAt row "TABLE_CATALOG" "TABLE_SCHEMA" "TABLE_NAME")

/-- The distinct tables that have a constraint of the identity, of the types. -/
def tablesOf (tableConstraints : List InformationSchemaRow) (types : List Text)
    (id : ConstraintId) : List ObjectRef :=
  (((tableConstraints.filter fun row ↦ constraintType row ∈ types).filterMap
    constraintTable).filter (·.1 = id)).map Prod.snd |>.dedup

def single (tables : List ObjectRef) : Option ObjectRef :=
  match tables with
  | [table] => some table
  | [] | _ :: _ :: _ => none

/-- The identities of the two constraints of a row of `REFERENTIAL_CONSTRAINTS`. -/
def referentialIds (row : InformationSchemaRow) : Option (ConstraintId × ConstraintId) := do
  return (← constraintId row "CONSTRAINT_CATALOG" "CONSTRAINT_SCHEMA" "CONSTRAINT_NAME",
    ← constraintId row "UNIQUE_CONSTRAINT_CATALOG" "UNIQUE_CONSTRAINT_SCHEMA"
      "UNIQUE_CONSTRAINT_NAME")

def foreignTypes : List Text := ["FOREIGN KEY".toList]

def uniqueTypes : List Text := ["PRIMARY KEY".toList, "UNIQUE".toList]

/-- The edge of a referential row, if each constraint has one table. -/
def foreignKey (tableConstraints : List InformationSchemaRow) (ids : ConstraintId × ConstraintId) :
    Option CatalogRelation := do
  let source ← single (tablesOf tableConstraints foreignTypes ids.1)
  let target ← single (tablesOf tableConstraints uniqueTypes ids.2)
  return .foreignKey source target ids.1.2.2

def displayId (id : ConstraintId) : Text := id.1 ++ '.' :: id.2.1 ++ '.' :: id.2.2

/-- The foreign keys, and the constraints that are not resolved; a row with an
incomplete identity is passed over. -/
def foreignKeys (tableConstraints referential : List InformationSchemaRow) :
    List CatalogRelation × List Text :=
  let ids := referential.filterMap referentialIds
  (ids.filterMap (foreignKey tableConstraints),
    (ids.filter fun ids ↦ foreignKey tableConstraints ids = none).map fun ids ↦ displayId ids.1)

/-! ## Folding the results -/

/-- A snapshot with what the relation pass adds. -/
structure DiscoveredSnapshot extends RelationSnapshot where
  primaryKeys : List PrimaryKey
  gaps : List DiscoveryGap
deriving DecidableEq, Repr

abbrev RelationResults : Type := List (RelationStatement × RelationOutcome)

namespace RelationResults

variable (results : RelationResults)

/-- The rows of a source, from its completed statements. -/
def sourceRows (source : RelationSource) : List InformationSchemaRow :=
  results.flatMap fun (statement, outcome) ↦
    match outcome with
    | .failed _ => []
    | .completed completed =>
        if statement.view.isSome ∧ statement.source = .objectReferences then []
        else if statement.source = source then rowsFromCompleted completed
        else []

/-- The rows on the dependencies of each view. -/
def viewReferences : List (ObjectRef × List InformationSchemaRow) :=
  results.filterMap fun (statement, outcome) ↦
    match outcome, statement.view with
    | .completed completed, some view =>
        if statement.source = .objectReferences then some (view, rowsFromCompleted completed)
        else none
    | .completed _, none | .failed _, _ => none

def failedGaps : List DiscoveryGap :=
  results.filterMap fun (statement, outcome) ↦
    match outcome with
    | .completed _ => none
    | .failed message => some
        { source := statement.source.asStr
          kind := .failed
          detail := match statement.view with
            | some view => view.qualified ++ ": ".toList ++ message
            | none => message }

/-- Whether a statement of the source has failed. -/
def failed (source : RelationSource) : Bool :=
  results.any fun (statement, outcome) ↦
    statement.source = source && match outcome with
      | .failed _ => true
      | .completed _ => false

end RelationResults

def unresolvedReason : Text :=
  "foreign key(s) whose constraint name does not identify exactly one table on each side".toList

/-- The gap for foreign keys that were not resolved. -/
def unresolvedGap (count : Nat) (first : Text) : DiscoveryGap where
  source := "foreign_keys".toList
  kind := .unresolved
  detail := Nat.toDigits 10 count ++ ' ' :: unresolvedReason ++ " (e.g. ".toList ++ first ++
    "); constraint names are not unique in Snowflake".toList

def unresolvedGaps (unresolved : List Text) : List DiscoveryGap :=
  unresolved.head?.toList.map (unresolvedGap unresolved.length)

def tagColumn (tags : List TagAssignment) (column : ColumnCatalogEntry) : ColumnCatalogEntry :=
  let own := tags.filter fun tag ↦ tag.column = some column.column &&
    tag.object.database = column.database && tag.object.schema = column.schema &&
    tag.object.name = column.object
  { column with tags := sortedSet (column.tags ++ own.map TagAssignment.label) }

/-- The foreign keys of the two listings, unless one of them failed. -/
def resolvedForeignKeys (results : RelationResults) : List CatalogRelation × List Text :=
  if results.failed .tableConstraints || results.failed .referentialConstraints then ([], [])
  else foreignKeys (results.sourceRows .tableConstraints)
    (results.sourceRows .referentialConstraints)

def applyRelationResults (snapshot : DiscoveredSnapshot) (planGaps : List DiscoveryGap)
    (results : RelationResults) : DiscoveredSnapshot :=
  let stages := (results.sourceRows .stages).filterMap stageEntry
  let (foreignKeys, unresolved) := resolvedForeignKeys results
  let tags := sortedSet ((results.sourceRows .tagReferences).filterMap tagAssignment)
  { snapshot with
    primaryKeys := Catalog.primaryKeys (results.sourceRows .primaryKeys)
    stages := stages
    fileFormats := (results.sourceRows .fileFormats).filterMap fileFormatEntry
    relations := sortedSet (foreignKeys ++
      (results.sourceRows .stages).filterMap stageRelation ++
      (results.sourceRows .externalTables).flatMap (externalTableRelations stages) ++
      results.viewReferences.flatMap fun (view, references) ↦
        references.filterMap (viewRelation view))
    columns := snapshot.columns.map (tagColumn tags)
    tags := tags
    gaps := planGaps ++ results.failedGaps ++ unresolvedGaps unresolved
    relationsDiscovered := true }

/-! ## The join -/

/-- A row says that a table has a constraint of the identity, of the types. -/
def Constrains (tableConstraints : List InformationSchemaRow) (types : List Text)
    (id : ConstraintId) (table : ObjectRef) : Prop :=
  ∃ row ∈ tableConstraints, constraintType row ∈ types ∧ constraintTable row = some (id, table)

/-- The table is the only one that has such a constraint. -/
def OnlyTable (tableConstraints : List InformationSchemaRow) (types : List Text)
    (id : ConstraintId) (table : ObjectRef) : Prop :=
  Constrains tableConstraints types id table ∧
    ∀ table', Constrains tableConstraints types id table' → table' = table

/-- A referential row joins two tables, each the only one of its constraint. -/
def RowJoins (tableConstraints : List InformationSchemaRow) (row : InformationSchemaRow)
    (source target : ObjectRef) (name : Text) : Prop :=
  ∃ id referenced, referentialIds row = some (id, referenced) ∧
    OnlyTable tableConstraints foreignTypes id source ∧
    OnlyTable tableConstraints uniqueTypes referenced target ∧ name = id.2.2

theorem mem_tablesOf {tableConstraints : List InformationSchemaRow} {types : List Text}
    {id : ConstraintId} {table : ObjectRef} :
    table ∈ tablesOf tableConstraints types id ↔ Constrains tableConstraints types id table := by
  simp only [tablesOf, List.mem_dedup, List.mem_map, List.mem_filter, List.mem_filterMap,
    decide_eq_true_eq]
  constructor
  · rintro ⟨⟨id', table'⟩, ⟨⟨row, ⟨hrow, htype⟩, hread⟩, rfl⟩, rfl⟩
    exact ⟨row, hrow, htype, hread⟩
  · rintro ⟨row, hrow, htype, hread⟩
    exact ⟨(id, table), ⟨⟨row, ⟨hrow, htype⟩, hread⟩, rfl⟩, rfl⟩

theorem single_eq_some {tables : List ObjectRef} (h : tables.Nodup) {table : ObjectRef} :
    single tables = some table ↔ table ∈ tables ∧ ∀ table' ∈ tables, table' = table := by
  cases tables with
  | nil => simp [single]
  | cons first rest =>
      cases rest with
      | nil =>
          simp only [single, Option.some.injEq, List.mem_singleton, forall_eq]
          exact ⟨fun h ↦ ⟨h.symm, h⟩, fun h ↦ h.2⟩
      | cons second rest =>
          refine iff_of_false nofun ?_
          rintro ⟨-, hall⟩
          have hne : first ≠ second := fun heq ↦
            (List.nodup_cons.mp h).1 (heq ▸ List.mem_cons_self)
          exact hne ((hall first List.mem_cons_self).trans
            (hall second (List.mem_cons_of_mem _ List.mem_cons_self)).symm)

theorem single_tablesOf {tableConstraints : List InformationSchemaRow} {types : List Text}
    {id : ConstraintId} {table : ObjectRef} :
    single (tablesOf tableConstraints types id) = some table ↔
      OnlyTable tableConstraints types id table := by
  refine (single_eq_some (List.nodup_dedup _)).trans ?_
  exact and_congr mem_tablesOf (forall_congr' fun _ ↦ imp_congr_left mem_tablesOf)

theorem foreignKey_eq_some {tableConstraints : List InformationSchemaRow}
    {ids : ConstraintId × ConstraintId} {relation : CatalogRelation} :
    foreignKey tableConstraints ids = some relation ↔ ∃ source target,
      OnlyTable tableConstraints foreignTypes ids.1 source ∧
      OnlyTable tableConstraints uniqueTypes ids.2 target ∧
      relation = .foreignKey source target ids.1.2.2 := by
  simp only [foreignKey, Option.bind_eq_bind, Option.bind_eq_some_iff, single_tablesOf]
  constructor
  · rintro ⟨source, hsource, target, htarget, h⟩
    exact ⟨source, target, hsource, htarget, (Option.some.inj h).symm⟩
  · rintro ⟨source, target, hsource, htarget, rfl⟩
    exact ⟨source, hsource, target, htarget, rfl⟩

/-- Whether a referential row yields an edge. -/
def Yields (tableConstraints : List InformationSchemaRow) (row : InformationSchemaRow) : Prop :=
  ∃ source target name, RowJoins tableConstraints row source target name

theorem yields_iff {tableConstraints : List InformationSchemaRow} {row : InformationSchemaRow} :
    Yields tableConstraints row ↔
      ((referentialIds row).bind (foreignKey tableConstraints)).isSome := by
  rw [Option.isSome_iff_exists]
  constructor
  · rintro ⟨source, target, name, id, referenced, hids, hsource, htarget, rfl⟩
    refine ⟨.foreignKey source target id.2.2, ?_⟩
    rw [hids]
    exact foreignKey_eq_some.mpr ⟨source, target, hsource, htarget, rfl⟩
  · rintro ⟨relation, h⟩
    obtain ⟨⟨id, referenced⟩, hids, h⟩ := Option.bind_eq_some_iff.mp h
    obtain ⟨source, target, hsource, htarget, -⟩ := foreignKey_eq_some.mp h
    exact ⟨source, target, id.2.2, id, referenced, hids, hsource, htarget, rfl⟩

instance (tableConstraints : List InformationSchemaRow) (row : InformationSchemaRow) :
    Decidable (Yields tableConstraints row) := decidable_of_iff _ yields_iff.symm

/-- The rows that yield no edge. -/
def lost (tableConstraints referential : List InformationSchemaRow) : List InformationSchemaRow :=
  referential.filter fun row ↦ ¬ Yields tableConstraints row

/-- What a snapshot is to say of the foreign keys: an edge for every row that
joins two tables, and the number of the other rows in a gap. -/
structure ForeignKeysJoined (planGaps : List DiscoveryGap) (results : RelationResults)
    (snapshot : DiscoveredSnapshot) : Prop where
  joined : ∀ source target name, .foreignKey source target name ∈ snapshot.relations ↔
    ∃ row ∈ results.sourceRows .referentialConstraints,
      RowJoins (results.sourceRows .tableConstraints) row source target name
  counted : ∃ first, snapshot.gaps = planGaps ++ results.failedGaps ++
    let count := (lost (results.sourceRows .tableConstraints)
      (results.sourceRows .referentialConstraints)).length
    if count = 0 then [] else [unresolvedGap count first]

/-! ## Edges -/

theorem mem_foreignKeys {tableConstraints referential : List InformationSchemaRow}
    {source target : ObjectRef} {name : Text} :
    .foreignKey source target name ∈ (foreignKeys tableConstraints referential).1 ↔
      ∃ row ∈ referential, RowJoins tableConstraints row source target name := by
  simp only [foreignKeys, List.mem_filterMap]
  constructor
  · rintro ⟨⟨id, referenced⟩, ⟨row, hrow, hids⟩, h⟩
    obtain ⟨source', target', hsource, htarget, heq⟩ := foreignKey_eq_some.mp h
    obtain ⟨rfl, rfl, rfl⟩ := CatalogRelation.foreignKey.inj heq
    exact ⟨row, hrow, id, referenced, hids, hsource, htarget, rfl⟩
  · rintro ⟨row, hrow, id, referenced, hids, hsource, htarget, rfl⟩
    exact ⟨(id, referenced), ⟨row, hrow, hids⟩,
      foreignKey_eq_some.mpr ⟨source, target, hsource, htarget, rfl⟩⟩

/-- A relation that is no foreign key. -/
def NotForeignKey (relation : CatalogRelation) : Prop :=
  ∀ source target name, relation ≠ .foreignKey source target name

theorem notForeignKey_stageRelation {row : InformationSchemaRow} {relation : CatalogRelation}
    (h : stageRelation row = some relation) : NotForeignKey relation := by
  simp only [stageRelation, Option.bind_eq_bind, Option.bind_eq_some_iff] at h
  obtain ⟨_, -, _, -, _, -, h⟩ := h
  intro source target name heq
  exact CatalogRelation.noConfusion ((Option.some.inj h).trans heq)

theorem notForeignKey_externalTableRelations {stages : List StageEntry}
    {row : InformationSchemaRow} {relation : CatalogRelation}
    (h : relation ∈ externalTableRelations stages row) : NotForeignKey relation := by
  unfold externalTableRelations at h
  cases hobject : objectAt row "TABLE_CATALOG" "TABLE_SCHEMA" "TABLE_NAME" with
  | none =>
      rw [hobject] at h
      exact absurd h List.not_mem_nil
  | some object =>
      rw [hobject] at h
      intro source target name heq
      simp only [List.mem_append, Option.mem_toList, Option.map_eq_some_iff] at h
      rcases h with ⟨_, -, h⟩ | ⟨_, -, h⟩
      · exact CatalogRelation.noConfusion (h.trans heq)
      · exact CatalogRelation.noConfusion (h.trans heq)

theorem notForeignKey_viewRelation {view : ObjectRef} {row : InformationSchemaRow}
    {relation : CatalogRelation} (h : viewRelation view row = some relation) :
    NotForeignKey relation := by
  simp only [viewRelation, Option.bind_eq_bind, Option.bind_eq_some_iff] at h
  obtain ⟨_, -, _, -, _, -, h⟩ := h
  intro source target name heq
  split at h
  · exact Option.noConfusion rfl (heq_of_eq h)
  · exact CatalogRelation.noConfusion ((Option.some.inj h).trans heq)

/-- The foreign keys of a snapshot are those of the two listings. -/
theorem mem_relations_foreignKey {snapshot : DiscoveredSnapshot} {planGaps : List DiscoveryGap}
    {results : RelationResults} {source target : ObjectRef} {name : Text} :
    .foreignKey source target name ∈
        (applyRelationResults snapshot planGaps results).relations ↔
      .foreignKey source target name ∈ (resolvedForeignKeys results).1 := by
  simp only [applyRelationResults, mem_sortedSet, List.mem_append, List.mem_filterMap,
    List.mem_flatMap]
  constructor
  · rintro (((h | ⟨_, -, h⟩) | ⟨_, -, h⟩) | ⟨_, -, _, -, h⟩)
    · exact h
    · exact absurd rfl (notForeignKey_stageRelation h _ _ _)
    · exact absurd rfl (notForeignKey_externalTableRelations h _ _ _)
    · exact absurd rfl (notForeignKey_viewRelation h _ _ _)
  · exact fun h ↦ .inl (.inl (.inl h))

/-! ## The count -/

/-- The digits in front of a text that starts with a space. -/
theorem takeWhile_toDigits (n : Nat) (s : Text) :
    (Nat.toDigits 10 n ++ ' ' :: s).takeWhile Char.isDigit = Nat.toDigits 10 n := by
  have hdigits : ∀ c ∈ Nat.toDigits 10 n, c.isDigit := fun c hc ↦
    Nat.isDigit_of_mem_toDigits (by decide) (by decide) hc
  rw [List.takeWhile_append_of_pos hdigits, List.takeWhile_cons_of_neg (by decide),
    List.append_nil]

theorem takeWhile_detail (n : Nat) (first : Text) :
    (unresolvedGap n first).detail.takeWhile Char.isDigit = Nat.toDigits 10 n := by
  have hdetail : ∃ rest, (unresolvedGap n first).detail = Nat.toDigits 10 n ++ ' ' :: rest :=
    ⟨_, (List.append_assoc _ _ _).trans <| (List.append_assoc _ _ _).trans
      (List.append_assoc _ _ _)⟩
  obtain ⟨rest, hdetail⟩ := hdetail
  rw [hdetail, takeWhile_toDigits]

theorem unresolvedGap_injective {m n : Nat} {a b : Text}
    (h : unresolvedGap m a = unresolvedGap n b) : m = n := by
  apply toDigits_injective
  rw [← takeWhile_detail m a, h, takeWhile_detail]

theorem unresolvedGaps_eq_iff {unresolved : List Text} {count : Nat} :
    (∃ first, unresolvedGaps unresolved =
      if count = 0 then [] else [unresolvedGap count first]) ↔ count = unresolved.length := by
  cases unresolved with
  | nil =>
      constructor
      · rintro ⟨first, h⟩
        by_contra hcount
        rw [if_neg (show count ≠ 0 from hcount)] at h
        exact List.cons_ne_nil _ _ h.symm
      · intro hcount
        exact ⟨[], (if_pos hcount).symm⟩
  | cons first rest =>
      constructor
      · rintro ⟨first', h⟩
        by_cases hcount : count = 0
        · rw [if_pos hcount] at h
          exact absurd h (List.cons_ne_nil _ _)
        · rw [if_neg hcount] at h
          exact (unresolvedGap_injective (List.cons.inj h).1).symm
      · intro hcount
        subst hcount
        exact ⟨first, (if_neg (Nat.succ_ne_zero _)).symm⟩

/-- The rows that yield no edge are the unresolved constraints and the rows that
were passed over. -/
theorem length_lost (tableConstraints referential : List InformationSchemaRow) :
    (lost tableConstraints referential).length =
      (foreignKeys tableConstraints referential).2.length +
        (referential.filter fun row ↦ referentialIds row = none).length := by
  induction referential with
  | nil => rfl
  | cons row referential ih =>
      simp only [lost, foreignKeys, List.length_map] at ih ⊢
      cases hids : referentialIds row with
      | none =>
          have hlost : ¬ Yields tableConstraints row := fun h ↦ by
            rw [yields_iff, hids] at h
            exact absurd h nofun
          simp only [List.filter_cons, List.filterMap_cons, hids, hlost, not_false_eq_true,
            decide_true, if_true, List.length_cons, ih, Nat.add_assoc]
      | some ids =>
          cases hkey : foreignKey tableConstraints ids with
          | none =>
              have hlost : ¬ Yields tableConstraints row := fun h ↦ by
                rw [yields_iff, hids, Option.bind_some, hkey] at h
                exact absurd h nofun
              simp only [List.filter_cons, List.filterMap_cons, hids, hkey, hlost,
                not_false_eq_true, decide_true, if_true, List.length_cons, ih,
                reduceCtorEq, decide_false, Bool.false_eq_true, if_false, Nat.add_right_comm]
          | some relation =>
              have hyields : Yields tableConstraints row := by
                rw [yields_iff, hids, Option.bind_some, hkey]
                rfl
              simp only [List.filter_cons, List.filterMap_cons, hids, hkey, hyields,
                not_true_eq_false, ih, reduceCtorEq, decide_false, Bool.false_eq_true, if_false]

/-! ## The promise -/

/-- When both listings completed, the snapshot tells of every referential row if
each row has both its identities in full. -/
theorem applyRelationResults_joined_iff (snapshot : DiscoveredSnapshot)
    (planGaps : List DiscoveryGap) (results : RelationResults)
    (htables : results.failed .tableConstraints = false)
    (hreferential : results.failed .referentialConstraints = false) :
    ForeignKeysJoined planGaps results (applyRelationResults snapshot planGaps results) ↔
      ∀ row ∈ results.sourceRows .referentialConstraints, (referentialIds row).isSome := by
  have hresolved : resolvedForeignKeys results =
      foreignKeys (results.sourceRows .tableConstraints)
        (results.sourceRows .referentialConstraints) := by
    rw [resolvedForeignKeys, htables, hreferential]
    rfl
  have hgaps : (applyRelationResults snapshot planGaps results).gaps =
      planGaps ++ results.failedGaps ++ unresolvedGaps
        (foreignKeys (results.sourceRows .tableConstraints)
          (results.sourceRows .referentialConstraints)).2 := by
    rw [← hresolved]
    rfl
  have hcount : (lost (results.sourceRows .tableConstraints)
        (results.sourceRows .referentialConstraints)).length =
      (foreignKeys (results.sourceRows .tableConstraints)
        (results.sourceRows .referentialConstraints)).2.length ↔
      ∀ row ∈ results.sourceRows .referentialConstraints, (referentialIds row).isSome := by
    rw [length_lost, Nat.add_eq_left, List.length_eq_zero_iff, List.filter_eq_nil_iff]
    simp only [decide_eq_true_eq, ← Option.isSome_iff_ne_none]
  rw [← hcount, ← unresolvedGaps_eq_iff]
  constructor
  · rintro ⟨-, first, h⟩
    rw [hgaps] at h
    exact ⟨first, List.append_cancel_left h⟩
  · rintro ⟨first, h⟩
    refine ⟨fun source target name ↦ ?_, first, ?_⟩
    · rw [mem_relations_foreignKey, hresolved, mem_foreignKeys]
    · rw [hgaps, h]

def exampleSnapshot : DiscoveredSnapshot where
  provenance := ⟨.fixture, .fixture, [], [], [], [], [], [], []⟩
  datasets := []
  stages := []
  fileFormats := []
  relations := []
  tags := []
  columns := []
  relationsDiscovered := false
  primaryKeys := []
  gaps := []

def exampleListing (source : RelationSource) (columns : List String)
    (rows : List (List (Option String))) : RelationStatement × RelationOutcome :=
  (⟨source, none⟩, .completed ⟨columns.map String.toList,
    rows.map (List.map (Option.map String.toList))⟩)

/-- An order's key and an item's reference to it. -/
def exampleTables : RelationStatement × RelationOutcome :=
  exampleListing .tableConstraints
    ["CONSTRAINT_CATALOG", "CONSTRAINT_SCHEMA", "CONSTRAINT_NAME", "TABLE_CATALOG",
      "TABLE_SCHEMA", "TABLE_NAME", "CONSTRAINT_TYPE"]
    [[some "D", some "S", some "K", some "D", some "S", some "ORDERS", some "PRIMARY KEY"],
      [some "D", some "S", some "R", some "D", some "S", some "ITEMS", some "foreign key"]]

/-- The reference with the name of the key. -/
def exampleReference (key : Option String) : RelationStatement × RelationOutcome :=
  exampleListing .referentialConstraints
    ["CONSTRAINT_CATALOG", "CONSTRAINT_SCHEMA", "CONSTRAINT_NAME",
      "UNIQUE_CONSTRAINT_CATALOG", "UNIQUE_CONSTRAINT_SCHEMA", "UNIQUE_CONSTRAINT_NAME"]
    [[some "D", some "S", some "R", some "D", some "S", key]]

/-- The two listings. -/
def exampleResults (key : Option String) : RelationResults :=
  [exampleTables, exampleReference key]

/-- The item's reference is joined to the order's key. -/
theorem applyRelationResults_joined_example :
    ForeignKeysJoined [] (exampleResults (some "K"))
      (applyRelationResults exampleSnapshot [] (exampleResults (some "K"))) :=
  (applyRelationResults_joined_iff exampleSnapshot [] (exampleResults (some "K"))
    (by decide +kernel) (by decide +kernel)).mpr (by decide +kernel)

/-- A reference without the name of the key is neither joined nor counted. -/
theorem not_joined_unnamed_key :
    (exampleResults none).failed .tableConstraints = false ∧
    (exampleResults none).failed .referentialConstraints = false ∧
    ¬ ForeignKeysJoined [] (exampleResults none)
      (applyRelationResults exampleSnapshot [] (exampleResults none)) := by
  refine ⟨by decide +kernel, by decide +kernel, ?_⟩
  rintro ⟨-, first, h⟩
  have hgaps : (applyRelationResults exampleSnapshot [] (exampleResults none)).gaps = [] := by
    decide +kernel
  have hfailed : (exampleResults none).failedGaps = [] := by
    decide +kernel
  have hlost : (lost ((exampleResults none).sourceRows .tableConstraints)
      ((exampleResults none).sourceRows .referentialConstraints)).length = 1 := by
    decide +kernel
  rw [hgaps, hfailed, hlost] at h
  exact List.cons_ne_nil _ _ h.symm

end FrankenSnowflake.Catalog
