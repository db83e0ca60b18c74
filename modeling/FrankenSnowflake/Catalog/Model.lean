import FrankenSnowflake.Foundation.Unicode

/-!
# Catalog artifacts

Dataset manifests, column rows and the relations between catalog objects.
Identifiers are compared without case, underscores, dashes and whitespace, and
written as they are.
-/

namespace FrankenSnowflake.Catalog

open Foundation

/-- A text, as its characters. -/
abbrev Text := List Char

theorem lawfulBEq_text : LawfulBEq Text := inferInstance

inductive ProvenanceSource where
  | informationSchema
  | adapterOverlay
  | fixture
  | offlineCache
  | accountUsage
deriving DecidableEq, Repr

inductive DataSourceClass where
  | live
  | fixture
  | empty
deriving DecidableEq, Repr

/-- Secret-free provenance of an artifact. -/
structure Provenance where
  source : ProvenanceSource
  dataSource : DataSourceClass
  snapshotId : Text
  discoveredAt : Text
  profileFingerprint : Text
  objectFingerprint : Text
  commandId : Text
  traceId : Text
  redactionsApplied : List Text
deriving DecidableEq, Repr

inductive DatasetKind where
  | table
  | view
  | materializedView
  | externalTable
deriving DecidableEq, Repr

inductive RightsClass where
  | publicData
  | internal
  | privateData
  | restricted
deriving DecidableEq, Repr

inductive FieldRole where
  | entityKey
  | timeIndex
  | knownAt
  | feature
  | label
  | metadata
deriving DecidableEq, Repr

inductive RoleConfidence where
  | confirmed
  | inferred
  | overlay
deriving DecidableEq, Repr

/-- Planner-facing dtype class. -/
inductive DtypeClass where
  | string
  | number
  | boolean
  | date
  | time
  | timestamp
  | binary
  | variant
  | unknown
deriving DecidableEq, Repr

/-- A per-column role assignment within a dataset manifest. -/
structure DatasetField where
  column : Text
  role : FieldRole
  dtype : DtypeClass
  required : Bool
  roleConfidence : RoleConfidence
deriving DecidableEq, Repr

/-- Dataset manifest: object location, rights class, limits and field roles. -/
structure DatasetManifest where
  id : Text
  profile : Text
  database : Text
  schema : Text
  object : Text
  kind : DatasetKind
  rightsClass : RightsClass
  defaultLimit : Nat
  maxRowsWithoutExport : Nat
  approxRowCount : Option Nat
  bytes : Option Nat
  description : Option Text
  provenance : Provenance
  fields : List DatasetField
deriving DecidableEq, Repr

/-- The first field with the requested role. -/
def DatasetManifest.fieldByRole (manifest : DatasetManifest) (role : FieldRole) :
    Option DatasetField :=
  manifest.fields.find? (·.role = role)

/-- Column catalog row. -/
structure ColumnCatalogEntry where
  datasetId : Text
  database : Text
  schema : Text
  object : Text
  column : Text
  ordinal : Nat
  snowflakeType : Text
  dtypeClass : DtypeClass
  nullable : Bool
  precision : Option Nat
  scale : Option Nat
  length : Option Nat
  aliases : List Text
  comment : Option Text
  tags : List Text
  provenance : Option Provenance
deriving DecidableEq, Repr

/-- Exact three-part identity of a catalog object. -/
structure ObjectRef where
  database : Text
  schema : Text
  name : Text
deriving DecidableEq, Repr, Ord

/-- `DATABASE.SCHEMA.NAME`, for display and lookup. -/
def ObjectRef.qualified (o : ObjectRef) : Text :=
  o.database ++ ".".toList ++ o.schema ++ ".".toList ++ o.name

/-- A relation between catalog objects. -/
inductive CatalogRelation where
  | viewDependsOn (view source : ObjectRef) (sourceType : Option Text)
  | foreignKey (source target : ObjectRef) (constraint : Text)
  | usesStage (object stage : ObjectRef)
  | usesFileFormat (object fileFormat : ObjectRef)
  | stageUsesFileFormat (stage fileFormat : ObjectRef)
deriving DecidableEq, Repr, Ord

/-- A catalog snapshot. -/
structure CatalogSnapshot where
  provenance : Provenance
  datasets : List DatasetManifest
  columns : List ColumnCatalogEntry
  /-- Whether the relation pass ran. -/
  relationsDiscovered : Bool
  relations : List CatalogRelation
deriving DecidableEq, Repr

/-- A table's primary key. -/
structure PrimaryKey where
  object : ObjectRef
  /-- In key order. -/
  columns : List Text
  constraint : Option Text
deriving DecidableEq, Repr

/-- A named stage. -/
structure StageEntry where
  stage : ObjectRef
  stageType : Option Text
  /-- An external stage's location. -/
  url : Option Text
  region : Option Text
  comment : Option Text
deriving DecidableEq, Repr

/-- A named file format. -/
structure FileFormatEntry where
  fileFormat : ObjectRef
  formatType : Option Text
  comment : Option Text
deriving DecidableEq, Repr

/-- A tag set directly on an object or one of its columns. -/
structure TagAssignment where
  tag : ObjectRef
  value : Option Text
  object : ObjectRef
  column : Option Text
deriving DecidableEq, Repr, Ord

/-- `DB.SCHEMA.TAG=value`, or `DB.SCHEMA.TAG` without a value. -/
def TagAssignment.label (tag : TagAssignment) : Text :=
  match tag.value with
  | some value => tag.tag.qualified ++ '=' :: value
  | none => tag.tag.qualified

/-- Why a discovery source is incomplete. -/
inductive DiscoveryGapKind where
  | failed
  | skipped
  | truncated
  | unresolved
deriving DecidableEq, Repr

/-- What a discovery pass could not see, and why. -/
structure DiscoveryGap where
  source : Text
  kind : DiscoveryGapKind
  detail : Text
deriving DecidableEq, Repr

/-- A catalog snapshot with the stages, file formats and tags of its relation pass. -/
structure RelationSnapshot extends CatalogSnapshot where
  stages : List StageEntry
  fileFormats : List FileFormatEntry
  tags : List TagAssignment
deriving DecidableEq, Repr

/-- The columns of one dataset in ordinal order. -/
def columnsForDataset (datasetId : Text) (columns : List ColumnCatalogEntry) :
    List ColumnCatalogEntry :=
  (columns.filter (·.datasetId = datasetId)).mergeSort fun c c' ↦ c.ordinal ≤ c'.ordinal

@[simp] theorem mem_columnsForDataset {datasetId : Text} {columns : List ColumnCatalogEntry}
    {c : ColumnCatalogEntry} :
    c ∈ columnsForDataset datasetId columns ↔ c ∈ columns ∧ c.datasetId = datasetId := by
  simp [columnsForDataset]

def CatalogSnapshot.columnsForDataset (s : CatalogSnapshot) (datasetId : Text) :
    List ColumnCatalogEntry :=
  Catalog.columnsForDataset datasetId s.columns

section Identifiers

-- `char::to_lowercase`; it may give several characters.
variable (toLowercase : Char → List Char)

/-- Normalise an identifier, for comparisons only. -/
def normalizeIdentifier (value : Text) : Text :=
  (value.filter fun c ↦ c ≠ '_' && c ≠ '-' && !Unicode.isWhitespace c).flatMap toLowercase

def sameIdentifier (left right : Text) : Bool :=
  normalizeIdentifier toLowercase left = normalizeIdentifier toLowercase right

end Identifiers

end FrankenSnowflake.Catalog
