import Mathlib.Data.Char
import Mathlib.Data.List.Dedup
import Mathlib.Data.List.Lex
import FrankenSnowflake.Catalog.Model
import FrankenSnowflake.Foundation.SortedMap

/-!
# Catalog drift

`diffSnapshots` compares two snapshots: datasets by their id, columns by their
normalised identifier, and of two columns that match six attributes.  What it
does not look at can drift unseen, and two columns of one dataset whose
identifiers normalise alike are taken for one another.
-/

namespace FrankenSnowflake.Catalog

open Foundation

/-! ## The report -/

/-- A change in a value. -/
structure ValueChange (α : Type) where
  old : α
  new : α
deriving DecidableEq, Repr

/-- A change in a metric. -/
structure MetricChange where
  old : Option Nat
  new : Option Nat
deriving DecidableEq, Repr

/-- The change from `old` to `new`, if there is one. -/
def valueChange {α : Type} [DecidableEq α] (old new : α) : Option (ValueChange α) :=
  if old ≠ new then some ⟨old, new⟩ else none

def metricChange (old new : Option Nat) : Option MetricChange :=
  if old ≠ new then some ⟨old, new⟩ else none

@[simp] theorem valueChange_eq_none {α : Type} [DecidableEq α] {old new : α} :
    valueChange old new = none ↔ old = new := by
  simp [valueChange]

@[simp] theorem metricChange_eq_none {old new : Option Nat} :
    metricChange old new = none ↔ old = new := by
  simp [metricChange]

/-- Changes detected on a column. -/
structure ColumnDiff where
  column : Text
  isBreaking : Bool
  dtypeClass : Option (ValueChange DtypeClass)
  snowflakeType : Option (ValueChange Text)
  nullable : Option (ValueChange Bool)
  precision : Option (ValueChange (Option Nat))
  scale : Option (ValueChange (Option Nat))
  comment : Option (ValueChange (Option Text))
deriving DecidableEq, Repr

/-- Changes detected within a dataset. -/
structure DatasetDiff where
  datasetId : Text
  database : Text
  schema : Text
  object : Text
  isBreaking : Bool
  approxRowCount : Option MetricChange
  bytes : Option MetricChange
  description : Option (ValueChange (Option Text))
  rightsClass : Option (ValueChange RightsClass)
  columnsAdded : List ColumnCatalogEntry
  columnsRemoved : List ColumnCatalogEntry
  columnsModified : List ColumnDiff
deriving DecidableEq, Repr

structure CatalogDiffSummary where
  datasetsAdded : Nat
  datasetsRemoved : Nat
  datasetsModified : Nat
  columnsAdded : Nat
  columnsRemoved : Nat
  columnsModified : Nat
  relationsAdded : Nat
  relationsRemoved : Nat
  /-- Some change is potentially breaking. -/
  hasBreakingChanges : Bool
  /-- Base and target represent identical catalog contents. -/
  isIdentical : Bool
deriving DecidableEq, Repr

structure CatalogDiff where
  schemaVersion : String
  baseSnapshotId : Option Text
  targetSnapshotId : Text
  summary : CatalogDiffSummary
  datasetsAdded : List DatasetManifest
  datasetsRemoved : List DatasetManifest
  datasetsModified : List DatasetDiff
  relationsAdded : List CatalogRelation
  relationsRemoved : List CatalogRelation
deriving DecidableEq, Repr

def diffSchemaVersion : String := "franken_snowflake.catalog_diff.v1"

/-! ## The comparison -/

/-- `matches!((base, target), (Some(b), Some(t)) if t < b)`. -/
def narrows (base target : Option Nat) : Bool :=
  match base, target with
  | some b, some t => t < b
  | _, _ => false

/-- Compare two columns that match. -/
def diffColumn (b t : ColumnCatalogEntry) : Option ColumnDiff :=
  let d : ColumnDiff :=
    { column := b.column
      isBreaking := b.dtypeClass ≠ t.dtypeClass || (b.nullable && !t.nullable) ||
        narrows b.precision t.precision || narrows b.scale t.scale
      dtypeClass := valueChange b.dtypeClass t.dtypeClass
      snowflakeType := valueChange b.snowflakeType t.snowflakeType
      nullable := valueChange b.nullable t.nullable
      precision := valueChange b.precision t.precision
      scale := valueChange b.scale t.scale
      comment := valueChange b.comment t.comment }
  if d.dtypeClass.isSome || d.snowflakeType.isSome || d.nullable.isSome || d.precision.isSome ||
      d.scale.isSome || d.comment.isSome then some d
  else none

section Snapshots

variable (toLowercase : Char → List Char)

/-- The columns of `xs` without a match in `ys`. -/
def unmatched (xs ys : List ColumnCatalogEntry) : List ColumnCatalogEntry :=
  xs.filter fun x ↦ !ys.any fun y ↦ sameIdentifier toLowercase y.column x.column

/-- The first column of `ys` that matches `x`. -/
def firstMatch (ys : List ColumnCatalogEntry) (x : ColumnCatalogEntry) :
    Option ColumnCatalogEntry :=
  ys.find? fun y ↦ sameIdentifier toLowercase y.column x.column

/-- Compare a dataset that both snapshots have. -/
def diffDataset (baseManifest targetManifest : DatasetManifest)
    (baseCols targetCols : List ColumnCatalogEntry) : Option DatasetDiff :=
  let colsAdded := unmatched toLowercase targetCols baseCols
  let colsRemoved := unmatched toLowercase baseCols targetCols
  let colsModified := baseCols.filterMap fun b ↦
    (firstMatch toLowercase targetCols b).bind (diffColumn b)
  let approxRowCount := metricChange baseManifest.approxRowCount targetManifest.approxRowCount
  let bytes := metricChange baseManifest.bytes targetManifest.bytes
  let description := valueChange baseManifest.description targetManifest.description
  let rightsClass := valueChange baseManifest.rightsClass targetManifest.rightsClass
  if !colsAdded.isEmpty || !colsRemoved.isEmpty || !colsModified.isEmpty ||
      approxRowCount.isSome || bytes.isSome || description.isSome || rightsClass.isSome then
    some
      { datasetId := baseManifest.id
        database := targetManifest.database
        schema := targetManifest.schema
        object := targetManifest.object
        isBreaking := !colsRemoved.isEmpty || colsModified.any (·.isBreaking)
        approxRowCount
        bytes
        description
        rightsClass
        columnsAdded := colsAdded
        columnsRemoved := colsRemoved
        columnsModified := colsModified }
  else none

/-- The datasets of a snapshot by id. -/
def datasetMap (s : CatalogSnapshot) : SortedMap Text DatasetManifest :=
  .ofList (s.datasets.map fun d ↦ (d.id, d))

/-- The datasets of `x` that `y` does not have. -/
def missingDatasets (x y : CatalogSnapshot) : List DatasetManifest :=
  ((datasetMap x).filter fun id _ ↦ ((datasetMap y).get? id).isNone).values

/-- The relations of `x` that `y` does not have, as sorted sets. -/
def missingRelations (x y : List CatalogRelation) : List CatalogRelation :=
  (x.dedup.filter fun r ↦ r ∉ y).mergeSort fun r r' ↦ (compare r r').isLE

/-- The common datasets that differ. -/
def modifiedDatasets (base target : CatalogSnapshot) : List DatasetDiff :=
  (datasetMap base).entries.filterMap fun e ↦
    ((datasetMap target).get? e.1).bind fun targetManifest ↦
      diffDataset toLowercase e.2 targetManifest (base.columnsForDataset e.1)
        (target.columnsForDataset e.1)

/-- Diff two catalog snapshots. -/
def diffSnapshots (base target : CatalogSnapshot) : CatalogDiff :=
  let datasetsAdded := missingDatasets target base
  let datasetsRemoved := missingDatasets base target
  let datasetsModified := modifiedDatasets toLowercase base target
  -- only two snapshots that both ran the relation pass are compared
  let compareRelations := base.relationsDiscovered && target.relationsDiscovered
  let relationsAdded :=
    if compareRelations then missingRelations target.relations base.relations else []
  let relationsRemoved :=
    if compareRelations then missingRelations base.relations target.relations else []
  { schemaVersion := diffSchemaVersion
    baseSnapshotId := some base.provenance.snapshotId
    targetSnapshotId := target.provenance.snapshotId
    summary :=
      { datasetsAdded := datasetsAdded.length
        datasetsRemoved := datasetsRemoved.length
        datasetsModified := datasetsModified.length
        columnsAdded := (datasetsModified.map (·.columnsAdded.length)).sum
        columnsRemoved := (datasetsModified.map (·.columnsRemoved.length)).sum
        columnsModified := (datasetsModified.map (·.columnsModified.length)).sum
        relationsAdded := relationsAdded.length
        relationsRemoved := relationsRemoved.length
        hasBreakingChanges := !datasetsRemoved.isEmpty || datasetsModified.any (·.isBreaking)
        isIdentical := datasetsAdded.isEmpty && datasetsRemoved.isEmpty &&
          datasetsModified.isEmpty && relationsAdded.isEmpty && relationsRemoved.isEmpty }
    datasetsAdded
    datasetsRemoved
    datasetsModified
    relationsAdded
    relationsRemoved }

end Snapshots

/-- All columns that a report adds to common datasets. -/
def CatalogDiff.columnsAdded (d : CatalogDiff) : List ColumnCatalogEntry :=
  d.datasetsModified.flatMap (·.columnsAdded)

/-- All columns that a report removes from common datasets. -/
def CatalogDiff.columnsRemoved (d : CatalogDiff) : List ColumnCatalogEntry :=
  d.datasetsModified.flatMap (·.columnsRemoved)

/-! ## What the comparison sees -/

/-- The attributes of a column that are compared. -/
structure ComparedAttributes where
  dtypeClass : DtypeClass
  snowflakeType : Text
  nullable : Bool
  precision : Option Nat
  scale : Option Nat
  comment : Option Text
deriving DecidableEq

def ColumnCatalogEntry.compared (c : ColumnCatalogEntry) : ComparedAttributes :=
  ⟨c.dtypeClass, c.snowflakeType, c.nullable, c.precision, c.scale, c.comment⟩

theorem diffColumn_eq_none {b t : ColumnCatalogEntry} :
    diffColumn b t = none ↔ b.compared = t.compared := by
  simp only [diffColumn, ColumnCatalogEntry.compared, ite_eq_right_iff, reduceCtorEq, imp_false,
    Bool.or_eq_true, not_or, Bool.not_eq_true, Option.isSome_eq_false_iff, Option.isNone_iff_eq_none,
    valueChange_eq_none, ComparedAttributes.mk.injEq, and_assoc]

section Snapshots

variable {toLowercase : Char → List Char}

theorem unmatched_eq_nil {xs ys : List ColumnCatalogEntry} :
    unmatched toLowercase xs ys = [] ↔
      ∀ x ∈ xs, ∃ y ∈ ys, sameIdentifier toLowercase y.column x.column := by
  simp [unmatched]

theorem diffDataset_eq_none {d d' : DatasetManifest} {cs cs' : List ColumnCatalogEntry} :
    diffDataset toLowercase d d' cs cs' = none ↔
      (∀ c' ∈ cs', ∃ c ∈ cs, sameIdentifier toLowercase c.column c'.column) ∧
        (∀ c ∈ cs, ∃ c' ∈ cs', sameIdentifier toLowercase c'.column c.column) ∧
        (∀ c ∈ cs, ∀ c', firstMatch toLowercase cs' c = some c' → c.compared = c'.compared) ∧
        d.approxRowCount = d'.approxRowCount ∧ d.bytes = d'.bytes ∧
        d.description = d'.description ∧ d.rightsClass = d'.rightsClass := by
  simp only [diffDataset, ite_eq_right_iff, reduceCtorEq, imp_false, Bool.or_eq_true, not_or,
    Bool.not_eq_true, Bool.not_eq_false', List.isEmpty_iff, unmatched_eq_nil,
    List.filterMap_eq_nil_iff, Option.bind_eq_none_iff, diffColumn_eq_none,
    Option.isSome_eq_false_iff, Option.isNone_iff_eq_none, valueChange_eq_none,
    metricChange_eq_none, and_assoc]

/-- No dataset id is listed twice. -/
def CatalogSnapshot.DistinctIds (s : CatalogSnapshot) : Prop := (s.datasets.map (·.id)).Nodup

theorem get?_datasetMap {s : CatalogSnapshot} (hs : s.DistinctIds) {id : Text}
    {d : DatasetManifest} : (datasetMap s).get? id = some d ↔ d ∈ s.datasets ∧ d.id = id := by
  have hkeys : ((s.datasets.map fun d ↦ (d.id, d)).map Prod.fst).Nodup := by
    rw [List.map_map]
    exact hs
  rw [datasetMap, SortedMap.get?_ofList_eq_some hkeys]
  simp only [List.mem_map, Prod.mk.injEq]
  constructor
  · rintro ⟨d, hd, rfl, rfl⟩
    exact ⟨hd, rfl⟩
  · rintro ⟨hd, rfl⟩
    exact ⟨d, hd, rfl, rfl⟩

theorem missingDatasets_eq_nil {x y : CatalogSnapshot} (hx : x.DistinctIds) (hy : y.DistinctIds) :
    missingDatasets x y = [] ↔ ∀ d ∈ x.datasets, ∃ d' ∈ y.datasets, d'.id = d.id := by
  have hvalues : missingDatasets x y = [] ↔ ∀ d, d ∉ missingDatasets x y :=
    List.eq_nil_iff_forall_not_mem
  rw [hvalues]
  simp only [missingDatasets, SortedMap.mem_values, SortedMap.get?_filter,
    Option.filter_eq_some_iff, get?_datasetMap hx, not_exists, not_and, Bool.not_eq_true,
    Option.isNone_eq_false_iff, Option.isSome_iff_exists, get?_datasetMap hy, and_imp]
  constructor
  · intro h d hd
    exact h d d.id hd rfl
  · rintro h d id hd rfl
    exact h d hd

theorem modifiedDatasets_eq_nil {x y : CatalogSnapshot} (hx : x.DistinctIds)
    (hy : y.DistinctIds) :
    modifiedDatasets toLowercase x y = [] ↔
      ∀ d ∈ x.datasets, ∀ d' ∈ y.datasets, d'.id = d.id →
        diffDataset toLowercase d d' (x.columnsForDataset d.id) (y.columnsForDataset d.id) = none := by
  rw [modifiedDatasets, List.filterMap_eq_nil_iff]
  constructor
  · intro h d hd d' hd' hid
    have hentry : (d.id, d) ∈ (datasetMap x).entries :=
      SortedMap.mem_entries.mpr ((get?_datasetMap hx).mpr ⟨hd, rfl⟩)
    have hget : (datasetMap y).get? d.id = some d' := (get?_datasetMap hy).mpr ⟨hd', hid⟩
    simpa [hget] using h _ hentry
  · rintro h ⟨id, d⟩ hentry
    obtain ⟨hd, rfl⟩ := (get?_datasetMap hx).mp (SortedMap.mem_entries.mp hentry)
    cases hget : (datasetMap y).get? d.id with
    | none => rfl
    | some d' =>
        obtain ⟨hd', hid⟩ := (get?_datasetMap hy).mp hget
        exact h d hd d' hd' hid

theorem missingRelations_eq_nil {x y : List CatalogRelation} :
    missingRelations x y = [] ↔ ∀ r ∈ x, r ∈ y := by
  have hperm := List.mergeSort_perm (x.dedup.filter fun r ↦ r ∉ y) fun r r' ↦ (compare r r').isLE
  rw [missingRelations, ← List.isEmpty_iff, hperm.isEmpty_eq, List.isEmpty_iff,
    List.filter_eq_nil_iff]
  simp

/-- Two snapshots among which the comparison sees no difference. -/
structure Agree (toLowercase : Char → List Char) (a b : CatalogSnapshot) : Prop where
  added : ∀ d' ∈ b.datasets, ∃ d ∈ a.datasets, d.id = d'.id
  removed : ∀ d ∈ a.datasets, ∃ d' ∈ b.datasets, d'.id = d.id
  metrics : ∀ d ∈ a.datasets, ∀ d' ∈ b.datasets, d'.id = d.id →
    d.approxRowCount = d'.approxRowCount ∧ d.bytes = d'.bytes ∧
      d.description = d'.description ∧ d.rightsClass = d'.rightsClass
  columnsAdded : ∀ d ∈ a.datasets, ∀ c' ∈ b.columnsForDataset d.id,
    ∃ c ∈ a.columnsForDataset d.id, sameIdentifier toLowercase c.column c'.column
  /-- The first match of a column has its compared attributes. -/
  columns : ∀ d ∈ a.datasets, ∀ c ∈ a.columnsForDataset d.id,
    ∃ c', firstMatch toLowercase (b.columnsForDataset d.id) c = some c' ∧
      c.compared = c'.compared
  relations : a.relationsDiscovered → b.relationsDiscovered →
    ∀ r, r ∈ a.relations ↔ r ∈ b.relations

theorem firstMatch_isSome {ys : List ColumnCatalogEntry} {x : ColumnCatalogEntry} :
    (∃ y ∈ ys, sameIdentifier toLowercase y.column x.column) ↔
      ∃ y, firstMatch toLowercase ys x = some y := by
  rw [firstMatch, ← Option.isSome_iff_exists, List.find?_isSome]

/-- The summary says `is_identical` exactly when the comparison sees no
difference. -/
theorem isIdentical_iff_agree {a b : CatalogSnapshot} (ha : a.DistinctIds) (hb : b.DistinctIds) :
    (diffSnapshots toLowercase a b).summary.isIdentical ↔ Agree toLowercase a b := by
  simp only [diffSnapshots, Bool.and_eq_true, List.isEmpty_iff, missingDatasets_eq_nil hb ha,
    missingDatasets_eq_nil ha hb, modifiedDatasets_eq_nil ha hb, diffDataset_eq_none,
    ite_eq_right_iff, missingRelations_eq_nil]
  constructor
  · rintro ⟨⟨⟨⟨hadded, hremoved⟩, hmodified⟩, hnew⟩, hold⟩
    refine ⟨hadded, hremoved, ?_, ?_, ?_, ?_⟩
    · intro d hd d' hd' hid
      exact (hmodified d hd d' hd' hid).2.2.2
    · intro d hd
      obtain ⟨d', hd', hid⟩ := hremoved d hd
      exact (hmodified d hd d' hd' hid).1
    · intro d hd c hc
      obtain ⟨d', hd', hid⟩ := hremoved d hd
      obtain ⟨-, hcols, hcompared, -⟩ := hmodified d hd d' hd' hid
      obtain ⟨c', hc'⟩ := firstMatch_isSome.mp (hcols c hc)
      exact ⟨c', hc', hcompared c hc c' hc'⟩
    · intro hda hdb r
      exact ⟨hold ⟨hda, hdb⟩ r, hnew ⟨hda, hdb⟩ r⟩
  · intro h
    refine ⟨⟨⟨⟨h.added, h.removed⟩, ?_⟩, ?_⟩, ?_⟩
    · intro d hd d' hd' hid
      refine ⟨h.columnsAdded d hd, ?_, ?_, h.metrics d hd d' hd' hid⟩
      · intro c hc
        obtain ⟨c', hc', -⟩ := h.columns d hd c hc
        exact firstMatch_isSome.mpr ⟨c', hc'⟩
      · intro c hc c' hc'
        obtain ⟨c'', hc'', hcompared⟩ := h.columns d hd c hc
        obtain rfl := Option.some.inj (hc'.symm.trans hc'')
        exact hcompared
    · rintro ⟨hda, hdb⟩ r hr
      exact (h.relations hda hdb r).mpr hr
    · rintro ⟨hda, hdb⟩ r hr
      exact (h.relations hda hdb r).mp hr

/-- An identical report has nothing breaking in it. -/
theorem not_breaking_of_isIdentical {a b : CatalogSnapshot}
    (h : (diffSnapshots toLowercase a b).summary.isIdentical) :
    (diffSnapshots toLowercase a b).summary.hasBreakingChanges = false := by
  simp only [diffSnapshots, Bool.and_eq_true, List.isEmpty_iff] at h ⊢
  obtain ⟨⟨⟨⟨-, hremoved⟩, hmodified⟩, -⟩, -⟩ := h
  simp [hremoved, hmodified]

/-- Columns of one dataset whose identifiers normalise alike have the same
compared attributes. -/
def CatalogSnapshot.NoClash (toLowercase : Char → List Char) (s : CatalogSnapshot) : Prop :=
  ∀ d ∈ s.datasets, ∀ c ∈ s.columnsForDataset d.id, ∀ c' ∈ s.columnsForDataset d.id,
    sameIdentifier toLowercase c.column c'.column → c.compared = c'.compared

theorem sameIdentifier_self (s : Text) : sameIdentifier toLowercase s s := by
  simp [sameIdentifier]

theorem firstMatch_congr {ys : List ColumnCatalogEntry} {x x' : ColumnCatalogEntry}
    (h : sameIdentifier toLowercase x.column x'.column) :
    firstMatch toLowercase ys x = firstMatch toLowercase ys x' := by
  have hnorm : normalizeIdentifier toLowercase x.column = normalizeIdentifier toLowercase x'.column :=
    of_decide_eq_true h
  simp only [firstMatch, sameIdentifier, hnorm]

/-- A snapshot agrees with itself exactly when no columns clash. -/
theorem agree_self_iff {a : CatalogSnapshot} (ha : a.DistinctIds) :
    Agree toLowercase a a ↔ a.NoClash toLowercase := by
  constructor
  · intro h d hd c hc c' hc' hsame
    obtain ⟨x, hx, hcompared⟩ := h.columns d hd c hc
    obtain ⟨x', hx', hcompared'⟩ := h.columns d hd c' hc'
    rw [firstMatch_congr hsame] at hx
    obtain rfl := Option.some.inj (hx.symm.trans hx')
    rw [hcompared, hcompared']
  · intro h
    refine ⟨fun d hd ↦ ⟨d, hd, rfl⟩, fun d hd ↦ ⟨d, hd, rfl⟩, ?_, ?_, ?_, fun _ _ _ ↦ Iff.rfl⟩
    · intro d hd d' hd' hid
      obtain rfl : d' = d := List.inj_on_of_nodup_map ha hd' hd hid
      exact ⟨rfl, rfl, rfl, rfl⟩
    · intro d hd c hc
      exact ⟨c, hc, sameIdentifier_self _⟩
    · intro d hd c hc
      obtain ⟨c', hc'⟩ := firstMatch_isSome.mp ⟨c, hc, sameIdentifier_self c.column⟩
      have hmem := List.mem_of_find?_eq_some hc'
      have hsame := List.find?_some hc'
      exact ⟨c', hc', (h d hd c' hmem c hc hsame).symm⟩

/-! ## Symmetry -/

/-- The ids that both snapshots have, in order. -/
def commonIds (x y : CatalogSnapshot) : List Text :=
  ((datasetMap x).filter fun id _ ↦ ((datasetMap y).get? id).isSome).keys

theorem commonIds_comm (x y : CatalogSnapshot) : commonIds x y = commonIds y x := by
  refine List.Perm.eq_of_pairwise (fun _ _ _ _ h h' ↦ absurd h (lt_asymm h')) (SortedMap.sorted_keys _)
    (SortedMap.sorted_keys _) ?_
  have hnodup : ∀ x y, (commonIds x y).Nodup :=
    fun x y ↦ (SortedMap.sorted_keys _).imp fun h ↦ ne_of_lt h
  refine (List.perm_ext_iff_of_nodup (hnodup x y) (hnodup y x)).mpr fun id ↦ ?_
  simp only [commonIds, SortedMap.mem_keys, SortedMap.get?_filter]
  cases (datasetMap x).get? id with
  | none =>
      cases (datasetMap y).get? id with
      | none => simp
      | some d' => simp
  | some d =>
      cases (datasetMap y).get? id with
      | none => simp
      | some d' => simp

/-- What is reported of columns, taken over the common datasets. -/
theorem flatMap_modifiedDatasets {report : DatasetDiff → List ColumnCatalogEntry}
    {f : List ColumnCatalogEntry → List ColumnCatalogEntry → List ColumnCatalogEntry}
    (hf : ∀ d d' cs cs', (diffDataset toLowercase d d' cs cs').elim [] report = f cs cs')
    (x y : CatalogSnapshot) :
    (modifiedDatasets toLowercase x y).flatMap report =
      (commonIds x y).flatMap fun id ↦ f (x.columnsForDataset id) (y.columnsForDataset id) := by
  simp only [modifiedDatasets, commonIds, SortedMap.keys, SortedMap.filter]
  induction (datasetMap x).entries with
  | nil => rfl
  | cons e es ih =>
      cases hget : (datasetMap y).get? e.1 with
      | none => simpa [hget] using ih
      | some d' =>
          have hd := hf e.2 d' (x.columnsForDataset e.1) (y.columnsForDataset e.1)
          cases hdiff : diffDataset toLowercase e.2 d' (x.columnsForDataset e.1)
              (y.columnsForDataset e.1) with
          | none =>
              rw [hdiff] at hd
              simpa [hget, hdiff, ← hd] using ih
          | some diff =>
              rw [hdiff] at hd
              simpa [hget, hdiff, ← hd] using ih

theorem elim_columnsAdded (d d' : DatasetManifest) (cs cs' : List ColumnCatalogEntry) :
    (diffDataset toLowercase d d' cs cs').elim [] (·.columnsAdded) =
      unmatched toLowercase cs' cs := by
  cases h : diffDataset toLowercase d d' cs cs' with
  | none => exact (unmatched_eq_nil.mpr (diffDataset_eq_none.mp h).1).symm
  | some diff =>
      simp only [diffDataset, Option.ite_none_right_eq_some, Option.some.injEq] at h
      obtain ⟨-, rfl⟩ := h
      rfl

theorem elim_columnsRemoved (d d' : DatasetManifest) (cs cs' : List ColumnCatalogEntry) :
    (diffDataset toLowercase d d' cs cs').elim [] (·.columnsRemoved) =
      unmatched toLowercase cs cs' := by
  cases h : diffDataset toLowercase d d' cs cs' with
  | none => exact (unmatched_eq_nil.mpr (diffDataset_eq_none.mp h).2.1).symm
  | some diff =>
      simp only [diffDataset, Option.ite_none_right_eq_some, Option.some.injEq] at h
      obtain ⟨-, rfl⟩ := h
      rfl

/-- The columns added one way are those removed the other way. -/
theorem columnsAdded_eq_columnsRemoved (a b : CatalogSnapshot) :
    (diffSnapshots toLowercase a b).columnsAdded =
      (diffSnapshots toLowercase b a).columnsRemoved := by
  have hadded := @flatMap_modifiedDatasets toLowercase _ _ elim_columnsAdded a b
  have hremoved := @flatMap_modifiedDatasets toLowercase _ _ elim_columnsRemoved b a
  rw [CatalogDiff.columnsAdded, CatalogDiff.columnsRemoved]
  simp only [diffSnapshots]
  rw [hadded, hremoved, commonIds_comm]

theorem relationsAdded_eq_relationsRemoved (a b : CatalogSnapshot) :
    (diffSnapshots toLowercase a b).relationsAdded =
      (diffSnapshots toLowercase b a).relationsRemoved := by
  simp only [diffSnapshots, Bool.and_comm]

/-! ## Exactness -/

/-- The datasets are the same, with the same columns up to provenance. -/
structure SameContents (a b : CatalogSnapshot) : Prop where
  datasets : ∀ id, (∃ d ∈ a.datasets, d.id = id) ↔ ∃ d ∈ b.datasets, d.id = id
  columns : ∀ d ∈ a.datasets, ∀ c : ColumnCatalogEntry,
    c ∈ (a.columnsForDataset d.id).map ({ · with provenance := none }) ↔
      c ∈ (b.columnsForDataset d.id).map ({ · with provenance := none })

/-- Drift detection is exact on a pair of snapshots. -/
structure DriftExact (toLowercase : Char → List Char) (a b : CatalogSnapshot) : Prop where
  self : (diffSnapshots toLowercase a a).summary.isIdentical = true ∧
    (diffSnapshots toLowercase a a).summary.hasBreakingChanges = false
  datasets : (diffSnapshots toLowercase a b).datasetsAdded =
    (diffSnapshots toLowercase b a).datasetsRemoved
  columns : (diffSnapshots toLowercase a b).columnsAdded =
    (diffSnapshots toLowercase b a).columnsRemoved
  relations : (diffSnapshots toLowercase a b).relationsAdded =
    (diffSnapshots toLowercase b a).relationsRemoved
  identical : (diffSnapshots toLowercase a b).summary.isIdentical → SameContents a b

end Snapshots

/-! ## A column that is widened -/

def widenedProvenance : Provenance :=
  ⟨.fixture, .fixture, ['s'], [], [], [], [], [], []⟩

/-- A dataset with one column of the given length. -/
def snapshotOfLength (length : Nat) : CatalogSnapshot where
  provenance := widenedProvenance
  datasets := [⟨['t'], [], ['D'], ['S'], ['T'], .table, .internal, 10, 10, none, none, none,
    widenedProvenance, []⟩]
  columns := [⟨['t'], ['D'], ['S'], ['T'], ['C'], 1, ['T', 'E', 'X', 'T'], .string, true, none, none,
    some length, [], none, [], none⟩]
  relationsDiscovered := false
  relations := []

theorem distinctIds_snapshotOfLength (n : Nat) : (snapshotOfLength n).DistinctIds :=
  List.nodup_singleton _

theorem columnsForDataset_snapshotOfLength (n : Nat) :
    (snapshotOfLength n).columnsForDataset ['t'] = (snapshotOfLength n).columns := by
  simp [snapshotOfLength, CatalogSnapshot.columnsForDataset, columnsForDataset]

theorem agree_snapshotOfLength (toLowercase : Char → List Char) (n n' : Nat) :
    Agree toLowercase (snapshotOfLength n) (snapshotOfLength n') := by
  have hdatasets : ∀ k, (snapshotOfLength k).datasets = (snapshotOfLength 0).datasets :=
    fun _ ↦ rfl
  have hid : ∀ k, ∀ d ∈ (snapshotOfLength k).datasets, d.id = ['t'] := by
    simp [snapshotOfLength]
  refine ⟨?_, ?_, ?_, ?_, ?_, ?_⟩
  · exact fun d hd ↦ ⟨d, hd, rfl⟩
  · exact fun d hd ↦ ⟨d, hd, rfl⟩
  · simp [snapshotOfLength]
  · intro d hd c hc
    rw [hid n d hd, columnsForDataset_snapshotOfLength] at hc ⊢
    obtain rfl := List.mem_singleton.mp hc
    exact ⟨_, List.mem_singleton_self _, sameIdentifier_self _⟩
  · intro d hd c hc
    rw [hid n d hd, columnsForDataset_snapshotOfLength] at hc ⊢
    obtain rfl := List.mem_singleton.mp hc
    exact ⟨_, List.find?_cons_of_pos (sameIdentifier_self _), rfl⟩
  · intro h
    cases h

end FrankenSnowflake.Catalog
