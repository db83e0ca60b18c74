import FrankenSnowflake.Cache.InMemory
import FrankenSnowflake.Foundation.SqlTable

/-!
# The SQLite backend

Every table of the cache is an SQL table.  Records are written as rows, in the
column order of the statements, and read back with checks of the columns.
-/

namespace FrankenSnowflake.Cache

open Foundation Foundation.Sql

attribute [local instance] lawfulBEq_text

/-- The rows of each table. -/
abbrev FrankenSqliteCache := Table → List Row

namespace FrankenSqliteCache

def new : FrankenSqliteCache := fun _ ↦ []

/-! ## Parameters -/

/-- The greatest integer of a column. -/
def i64Max : Nat := 2 ^ 63 - 1

def optText : Option Text → Value
  | some value => .text value
  | none => .null

def u64Value (field : String) (value : Nat) : CacheResult Value :=
  if value ≤ i64Max then .ok (.integer value) else .error (.numericOverflow field value)

def optU64 (field : String) : Option Nat → CacheResult Value
  | some value => u64Value field value
  | none => .ok .null

def authLaneToStr : AuthLane → Text
  | .programmaticAccessToken => "pat".toList
  | .keyPairJwt => "key_pair_jwt".toList
  | .oAuthBearer => "oauth".toList
  | .workloadIdentityFederation => "workload_identity".toList

def authLaneFromStr (value : Text) : CacheResult AuthLane :=
  if value = "pat".toList then .ok .programmaticAccessToken
  else if value = "key_pair_jwt".toList then .ok .keyPairJwt
  else if value = "oauth".toList then .ok .oAuthBearer
  else if value ∈ ["workload_identity".toList, "workload_identity_federation".toList, "oidc".toList]
    then .ok .workloadIdentityFederation
  else .error (.invalidRow "auth_lane" (.unknownValue value))

def credentialRefKindToStr : CredentialRefKind → Text
  | .env => "env".toList
  | .provider => "provider".toList
  | .none => "none".toList

def credentialRefKindFromStr (value : Text) : CacheResult CredentialRefKind :=
  if value = "env".toList then .ok .env
  else if value = "provider".toList then .ok .provider
  else if value = "none".toList then .ok .none
  else .error (.invalidRow "credential_ref_kind" (.unknownValue value))

def exportKindToStr : ExportKind → Text
  | .copyInto => "copy_into".toList
  | .localCsv => "local_csv".toList
  | .localJsonl => "local_jsonl".toList
  | .localParquet => "local_parquet".toList
  | .localFrame => "local_frame".toList

def exportKindFromStr (value : Text) : CacheResult ExportKind :=
  if value = "copy_into".toList then .ok .copyInto
  else if value = "local_csv".toList then .ok .localCsv
  else if value = "local_jsonl".toList then .ok .localJsonl
  else if value = "local_parquet".toList then .ok .localParquet
  else if value = "local_frame".toList then .ok .localFrame
  else .error (.invalidRow "export_kind" (.unknownValue value))

/-- The parameters of the insertion of a record, in the order of the columns. -/
def params : (t : Table) → t.Record → CacheResult Row
  | .profiles, r => do
      let created ← u64Value "created_at_ms" r.createdAtMs
      let updated ← u64Value "updated_at_ms" r.updatedAtMs
      return [.text r.profileId, .text r.displayName, optText r.accountLocatorRedacted,
        .text (authLaneToStr r.authLane), .text (credentialRefKindToStr r.credentialRef.kind),
        optText r.credentialRef.name, optText r.defaultDatabase, optText r.defaultSchema,
        optText r.defaultWarehouse, optText r.defaultRole, created, updated]
  | .catalogSnapshots, r => do
      let captured ← u64Value "captured_at_ms" r.capturedAtMs
      let bytes ← u64Value "payload_bytes" r.payload.address.byteLen
      return [.text r.snapshotId, .text r.profileId, .text r.sourceKind, optText r.databaseName,
        optText r.schemaName, captured, .text r.payload.canonical,
        .text r.payload.address.digestHex, bytes]
  | .datasetManifests, r => do
      let limit ← u64Value "default_limit" r.defaultLimit
      let maxRows ← u64Value "max_rows_without_export" r.maxRowsWithoutExport
      let bytes ← u64Value "manifest_bytes" r.manifest.address.byteLen
      let created ← u64Value "created_at_ms" r.createdAtMs
      return [.text r.datasetId, .text r.profileId, optText r.snapshotId, .text r.databaseName,
        .text r.schemaName, .text r.objectName, .text r.rightsClass, limit, maxRows,
        .text r.manifest.canonical, .text r.manifest.address.digestHex, bytes, created]
  | .queryPlans, r => do
      let limit ← optU64 "estimated_row_limit" r.estimatedRowLimit
      let created ← u64Value "created_at_ms" r.createdAtMs
      return [.text r.planId, .text r.profileId, optText r.datasetId, .text r.mode,
        .text r.normalizedSqlHash, .text r.normalizedSqlRedacted, .text r.bindingsShapeJson,
        .text r.safetyClass, limit, .integer (if r.requiresExport then 1 else 0), created]
  | .queryReceipts, r => do
      let rowCount ← optU64 "row_count" r.rowCount
      let bytes ← u64Value "receipt_bytes" r.receipt.address.byteLen
      let created ← u64Value "created_at_ms" r.createdAtMs
      return [.text r.receiptId, .text r.planId, .text r.profileId, .text r.commandId,
        .text r.traceId, .text r.outcomeKind, .text r.receiptState, optText r.statementHandle,
        optText r.snowflakeQueryId, optText r.requestId, rowCount, .text r.receipt.canonical,
        .text r.receipt.address.digestHex, bytes, created]
  | .partitionMetadata, r => do
      let rowCount ← u64Value "row_count" r.rowCount
      let compressed ← optU64 "compressed_bytes" r.compressedBytes
      let uncompressed ← optU64 "uncompressed_bytes" r.uncompressedBytes
      return [.text r.receiptId, .integer r.partitionIndex.toNat, rowCount, compressed,
        uncompressed, optText r.payloadHash, optText r.contentEncoding]
  | .exports, r => do
      let byteLen ← u64Value "byte_len" r.contentAddress.byteLen
      let rowCount ← optU64 "row_count" r.rowCount
      let created ← u64Value "created_at_ms" r.createdAtMs
      return [.text r.exportId, .text r.receiptId, .text (exportKindToStr r.exportKind),
        .text r.targetUriRedacted, .text r.contentAddress.digestHex, byteLen, rowCount, created]
  | .costHistory, r => do
      let rowCount ← optU64 "row_count" r.rowCount
      let compressed ← optU64 "compressed_bytes" r.compressedBytes
      let uncompressed ← optU64 "uncompressed_bytes" r.uncompressedBytes
      let created ← u64Value "created_at_ms" r.createdAtMs
      return [.text r.historyId, .text r.profileId, optText r.planId, optText r.receiptId,
        rowCount, compressed, uncompressed, .text r.costVectorJson, created]
  | .replayBundles, r => do
      let bytes ← u64Value "manifest_bytes" r.manifest.address.byteLen
      let created ← u64Value "created_at_ms" r.createdAtMs
      return [.text r.bundleId, optText r.sourceReceiptId, optText r.snapshotId,
        .text r.artifactDir, .text r.manifest.canonical, .text r.manifest.address.digestHex, bytes,
        created]
  | .auditLog, r => do
      let created ← u64Value "created_at_ms" r.createdAtMs
      return [.text r.eventId, optText r.receiptId, .text r.commandId, .text r.traceId,
        .text r.eventKind, .text r.eventJson, created]

/-! ## Rows -/

def rowText (row : Row) (index : Nat) (field : String) : CacheResult Text :=
  match row[index]? with
  | some (.text value) => .ok value
  | some _ => .error (.invalidRow field (.wrongType "TEXT"))
  | none => .error (.invalidRow field .missingColumn)

def rowOptText (row : Row) (index : Nat) (field : String) : CacheResult (Option Text) :=
  match row[index]? with
  | some (.text value) => .ok (some value)
  | some .null | none => .ok none
  | some _ => .error (.invalidRow field (.wrongType "nullable TEXT"))

def rowU64 (row : Row) (index : Nat) (field : String) : CacheResult Nat :=
  match row[index]? with
  | some (.integer (.ofNat value)) => .ok value
  | some _ => .error (.invalidRow field (.wrongType "non-negative INTEGER"))
  | none => .error (.invalidRow field .missingColumn)

def rowU32 (row : Row) (index : Nat) (field : String) : CacheResult UInt32 := do
  let value ← rowU64 row index field
  if value < 2 ^ 32 then .ok (.ofNat value) else .error (.numericOverflow field value)

def rowOptU64 (row : Row) (index : Nat) (field : String) : CacheResult (Option Nat) :=
  match row[index]? with
  | some .null | none => .ok none
  | some (.integer (.ofNat value)) => .ok (some value)
  | some _ => .error (.invalidRow field (.wrongType "nullable non-negative INTEGER"))

def rowBool (row : Row) (index : Nat) (field : String) : CacheResult Bool :=
  match row[index]? with
  | some (.integer 0) => .ok false
  | some (.integer 1) => .ok true
  | some _ => .error (.invalidRow field (.wrongType "0/1 INTEGER"))
  | none => .error (.invalidRow field .missingColumn)

section Rows

variable (E : Crates) (row : Row)

/-- A payload, verified against its address. -/
def payloadFromRow (jsonIndex hashIndex bytesIndex : Nat) (entity : String) :
    CacheResult VerifiedPayload := do
  let canonical ← rowText row jsonIndex entity
  let digestHex ← rowText row hashIndex entity
  let byteLen ← rowU64 row bytesIndex entity
  let payload : VerifiedPayload := ⟨canonical, "blake3".toList, digestHex, byteLen⟩
  payload.verify E entity
  return payload

def rowProfile : CacheResult ProfileRecord := do
  let authLane ← authLaneFromStr (← rowText row 3 "auth_lane")
  let kind ← credentialRefKindFromStr (← rowText row 4 "credential_ref_kind")
  return {
    profileId := ← rowText row 0 "profile_id"
    displayName := ← rowText row 1 "display_name"
    accountLocatorRedacted := ← rowOptText row 2 "account_locator_redacted"
    authLane
    credentialRef := ⟨kind, ← rowOptText row 5 "credential_ref_name"⟩
    defaultDatabase := ← rowOptText row 6 "default_database"
    defaultSchema := ← rowOptText row 7 "default_schema"
    defaultWarehouse := ← rowOptText row 8 "default_warehouse"
    defaultRole := ← rowOptText row 9 "default_role"
    createdAtMs := ← rowU64 row 10 "created_at_ms"
    updatedAtMs := ← rowU64 row 11 "updated_at_ms" }

def rowCatalogSnapshot : CacheResult CatalogSnapshotRecord := do
  return {
    snapshotId := ← rowText row 0 "snapshot_id"
    profileId := ← rowText row 1 "profile_id"
    sourceKind := ← rowText row 2 "source_kind"
    databaseName := ← rowOptText row 3 "database_name"
    schemaName := ← rowOptText row 4 "schema_name"
    capturedAtMs := ← rowU64 row 5 "captured_at_ms"
    payload := ← payloadFromRow E row 6 7 8 "catalog_snapshot" }

def rowDatasetManifest : CacheResult DatasetManifestRecord := do
  return {
    datasetId := ← rowText row 0 "dataset_id"
    profileId := ← rowText row 1 "profile_id"
    snapshotId := ← rowOptText row 2 "snapshot_id"
    databaseName := ← rowText row 3 "database_name"
    schemaName := ← rowText row 4 "schema_name"
    objectName := ← rowText row 5 "object_name"
    rightsClass := ← rowText row 6 "rights_class"
    defaultLimit := ← rowU64 row 7 "default_limit"
    maxRowsWithoutExport := ← rowU64 row 8 "max_rows_without_export"
    manifest := ← payloadFromRow E row 9 10 11 "dataset_manifest"
    createdAtMs := ← rowU64 row 12 "created_at_ms" }

def rowQueryPlan : CacheResult QueryPlanRecord := do
  return {
    planId := ← rowText row 0 "plan_id"
    profileId := ← rowText row 1 "profile_id"
    datasetId := ← rowOptText row 2 "dataset_id"
    mode := ← rowText row 3 "mode"
    normalizedSqlHash := ← rowText row 4 "normalized_sql_hash"
    normalizedSqlRedacted := ← rowText row 5 "normalized_sql_redacted"
    bindingsShapeJson := ← rowText row 6 "bindings_shape_json"
    safetyClass := ← rowText row 7 "safety_class"
    estimatedRowLimit := ← rowOptU64 row 8 "estimated_row_limit"
    requiresExport := ← rowBool row 9 "requires_export"
    createdAtMs := ← rowU64 row 10 "created_at_ms" }

def rowQueryReceipt : CacheResult QueryReceiptRecord := do
  return {
    receiptId := ← rowText row 0 "receipt_id"
    planId := ← rowText row 1 "plan_id"
    profileId := ← rowText row 2 "profile_id"
    commandId := ← rowText row 3 "command_id"
    traceId := ← rowText row 4 "trace_id"
    outcomeKind := ← rowText row 5 "outcome_kind"
    receiptState := ← rowText row 6 "receipt_state"
    statementHandle := ← rowOptText row 7 "statement_handle"
    snowflakeQueryId := ← rowOptText row 8 "snowflake_query_id"
    requestId := ← rowOptText row 9 "request_id"
    rowCount := ← rowOptU64 row 10 "row_count"
    receipt := ← payloadFromRow E row 11 12 13 "query_receipt"
    createdAtMs := ← rowU64 row 14 "created_at_ms" }

def rowPartitionMetadata : CacheResult PartitionMetadataRecord := do
  return {
    receiptId := ← rowText row 0 "receipt_id"
    partitionIndex := ← rowU32 row 1 "partition_index"
    rowCount := ← rowU64 row 2 "row_count"
    compressedBytes := ← rowOptU64 row 3 "compressed_bytes"
    uncompressedBytes := ← rowOptU64 row 4 "uncompressed_bytes"
    payloadHash := ← rowOptText row 5 "payload_hash"
    contentEncoding := ← rowOptText row 6 "content_encoding" }

def rowExport : CacheResult ExportRecord := do
  return {
    exportId := ← rowText row 0 "export_id"
    receiptId := ← rowText row 1 "receipt_id"
    exportKind := ← exportKindFromStr (← rowText row 2 "export_kind")
    targetUriRedacted := ← rowText row 3 "target_uri_redacted"
    contentAddress :=
      ⟨"blake3".toList, ← rowText row 4 "content_hash", ← rowU64 row 5 "byte_len"⟩
    rowCount := ← rowOptU64 row 6 "row_count"
    createdAtMs := ← rowU64 row 7 "created_at_ms" }

def rowCostHistory : CacheResult CostHistoryRecord := do
  return {
    historyId := ← rowText row 0 "history_id"
    profileId := ← rowText row 1 "profile_id"
    planId := ← rowOptText row 2 "plan_id"
    receiptId := ← rowOptText row 3 "receipt_id"
    rowCount := ← rowOptU64 row 4 "row_count"
    compressedBytes := ← rowOptU64 row 5 "compressed_bytes"
    uncompressedBytes := ← rowOptU64 row 6 "uncompressed_bytes"
    costVectorJson := ← rowText row 7 "cost_vector_json"
    createdAtMs := ← rowU64 row 8 "created_at_ms" }

def rowAuditEvent : CacheResult AuditEventRecord := do
  return {
    eventId := ← rowText row 0 "event_id"
    receiptId := ← rowOptText row 1 "receipt_id"
    commandId := ← rowText row 2 "command_id"
    traceId := ← rowText row 3 "trace_id"
    eventKind := ← rowText row 4 "event_kind"
    eventJson := ← rowText row 5 "event_json"
    createdAtMs := ← rowU64 row 6 "created_at_ms" }

end Rows

/-! ## Writes -/

/-- What an insertion does with a row of the same primary key. -/
inductive Conflict where
  | replace
  | ignore

/-- The columns of the primary key of a table. -/
def primaryKeyColumns : Table → List Nat
  | .partitionMetadata => [0, 1]
  | _ => [0]

section Writes

variable (E : Crates)

/-- Check a record and insert its row. -/
def insert (conflict : Conflict) (t : Table) (c : FrankenSqliteCache) (r : t.Record) :
    CacheResult FrankenSqliteCache := do
  t.check E r
  let row ← params t r
  return Function.update c t (match conflict with
    | .replace => insertOrReplace (primaryKeyColumns t) row (c t)
    | .ignore => insertOrIgnore (primaryKeyColumns t) row (c t))

def upsertProfile := insert E .replace .profiles

def insertCatalogSnapshot := insert E .ignore .catalogSnapshots

def upsertDatasetManifest := insert E .replace .datasetManifests

def upsertQueryPlan := insert E .replace .queryPlans

def appendQueryReceipt := insert E .ignore .queryReceipts

def appendPartitionMetadata := insert E .replace .partitionMetadata

def appendExport := insert E .ignore .exports

def appendCostHistory := insert E .ignore .costHistory

def appendReplayBundle := insert E .ignore .replayBundles

def appendAuditEvent := insert E .ignore .auditLog

/-- The write of a table. -/
def write : (t : Table) → FrankenSqliteCache → t.Record → CacheResult FrankenSqliteCache
  | .profiles => upsertProfile E
  | .catalogSnapshots => insertCatalogSnapshot E
  | .datasetManifests => upsertDatasetManifest E
  | .queryPlans => upsertQueryPlan E
  | .queryReceipts => appendQueryReceipt E
  | .partitionMetadata => appendPartitionMetadata E
  | .exports => appendExport E
  | .costHistory => appendCostHistory E
  | .replayBundles => appendReplayBundle E
  | .auditLog => appendAuditEvent E

end Writes

/-! ## Lookups -/

/-- The first row, if there is one. -/
def first {ρ : Type} (decode : Row → CacheResult ρ) (rows : List Row) : CacheResult (Option ρ) :=
  match rows.head? with
  | some row => (decode row).map some
  | none => .ok none

/-- `column = ?`, which no NULL is. -/
def equals (column : Nat) (value : Text) (row : Row) : Bool := row.col column = .text value

/-- `(? IS NULL OR column = ?)`. -/
def equalsIfGiven (column : Nat) (value : Option Text) (row : Row) : Bool :=
  value.all fun value ↦ equals column value row

/-- The columns of a row that a query names. -/
def project (columns : List Nat) (row : Row) : Row := columns.map row.col

section Lookups

variable (E : Crates) (c : FrankenSqliteCache)

def profile (profileId : Text) : CacheResult (Option ProfileRecord) :=
  first rowProfile (select (equals 0 profileId) [] (c .profiles))

def profiles : CacheResult (List ProfileRecord) :=
  (select (fun _ ↦ true) [⟨0, false⟩] (c .profiles)).mapM rowProfile

def catalogSnapshot (snapshotId : Text) : CacheResult (Option CatalogSnapshotRecord) :=
  first (rowCatalogSnapshot E) (select (equals 0 snapshotId) [] (c .catalogSnapshots))

/-- The snapshots of a scope, newest first. -/
def scopeRows (profileId : Text) (databaseName schemaName : Option Text) : List Row :=
  select (fun row ↦ equals 1 profileId row && equalsIfGiven 3 databaseName row &&
    equalsIfGiven 4 schemaName row) [⟨5, true⟩, ⟨0, true⟩] (c .catalogSnapshots)

def latestCatalogSnapshot (profileId : Text) (databaseName schemaName : Option Text) :
    CacheResult (Option CatalogSnapshotRecord) :=
  first (rowCatalogSnapshot E) ((scopeRows c profileId databaseName schemaName).take 1)

def catalogSnapshots (profileId : Text) (databaseName schemaName : Option Text) :
    CacheResult (List CatalogSnapshotRecord) :=
  (scopeRows c profileId databaseName schemaName).mapM (rowCatalogSnapshot E)

def datasetManifest (datasetId : Text) : CacheResult (Option DatasetManifestRecord) :=
  first (rowDatasetManifest E) (select (equals 0 datasetId) [] (c .datasetManifests))

def datasetIds : CacheResult (List Text) :=
  ((select (fun _ ↦ true) [⟨0, false⟩] (c .datasetManifests)).map (project [0])).mapM
    (rowText · 0 "dataset_id")

def queryPlan (planId : Text) : CacheResult (Option QueryPlanRecord) :=
  first rowQueryPlan (select (equals 0 planId) [] (c .queryPlans))

def queryReceipt (receiptId : Text) : CacheResult (Option QueryReceiptRecord) :=
  first (rowQueryReceipt E) ((select (equals 0 receiptId) [] (c .queryReceipts)).take 1)

def latestSuccessfulReceipt (planId : Text) : CacheResult (Option QueryReceiptRecord) :=
  first (rowQueryReceipt E) ((select (fun row ↦ equals 1 planId row && equals 5 "ok".toList row)
    [⟨14, true⟩, ⟨0, true⟩] (c .queryReceipts)).take 1)

def receiptBySnowflakeQueryId (profileId snowflakeQueryId : Text) :
    CacheResult (Option QueryReceiptRecord) :=
  first (rowQueryReceipt E) ((select (fun row ↦ equals 2 profileId row &&
    equals 8 snowflakeQueryId row) [⟨14, true⟩, ⟨0, true⟩] (c .queryReceipts)).take 1)

def partitionsForReceipt (receiptId : Text) : CacheResult (List PartitionMetadataRecord) :=
  (select (equals 0 receiptId) [⟨1, false⟩] (c .partitionMetadata)).mapM rowPartitionMetadata

def exportsForReceipt (receiptId : Text) : CacheResult (List ExportRecord) :=
  (select (equals 1 receiptId) [⟨7, true⟩, ⟨0, false⟩] (c .exports)).mapM rowExport

def «export» (exportId : Text) : CacheResult (Option ExportRecord) :=
  first rowExport (select (equals 0 exportId) [] (c .exports))

def costHistoryForProfile (profileId : Text) : CacheResult (List CostHistoryRecord) :=
  (select (equals 1 profileId) [⟨8, true⟩, ⟨0, false⟩] (c .costHistory)).mapM rowCostHistory

def auditEvents : CacheResult (List AuditEventRecord) :=
  (select (fun _ ↦ true) [⟨6, false⟩, ⟨0, false⟩] (c .auditLog)).mapM rowAuditEvent

/-- The answer of the SQLite backend. -/
def answer : Lookup → CacheResult Answer
  | .profile id => (c.profile id).map (.record .profiles)
  | .profiles => c.profiles.map (.records .profiles)
  | .catalogSnapshot id => (c.catalogSnapshot E id).map (.record .catalogSnapshots)
  | .latestCatalogSnapshot p d s =>
      (c.latestCatalogSnapshot E p d s).map (.record .catalogSnapshots)
  | .catalogSnapshots p d s => (c.catalogSnapshots E p d s).map (.records .catalogSnapshots)
  | .datasetManifest id => (c.datasetManifest E id).map (.record .datasetManifests)
  | .datasetIds => c.datasetIds.map .ids
  | .queryPlan id => (c.queryPlan id).map (.record .queryPlans)
  | .queryReceipt id => (c.queryReceipt E id).map (.record .queryReceipts)
  | .latestSuccessfulReceipt id => (c.latestSuccessfulReceipt E id).map (.record .queryReceipts)
  | .receiptBySnowflakeQueryId p q =>
      (c.receiptBySnowflakeQueryId E p q).map (.record .queryReceipts)
  | .partitionsForReceipt id => (c.partitionsForReceipt id).map (.records .partitionMetadata)
  | .exportsForReceipt id => (c.exportsForReceipt id).map (.records .exports)
  | .export id => (c.export id).map (.record .exports)
  | .costHistoryForProfile id => (c.costHistoryForProfile id).map (.records .costHistory)
  | .auditEvents => c.auditEvents.map (.records .auditLog)

end Lookups

/-! ## Retention -/

section Retention

variable (c : FrankenSqliteCache)

/-- The ids behind the first `max` of each group. -/
def idsBeyond {κ : Type} [LinearOrder κ] (max : Nat) (rows : List (κ × Text)) : List Text :=
  (InMemoryCache.groupBy Prod.fst Prod.snd rows).values.flatMap (·.drop max)

/-- The receipts that a policy drops. -/
def receiptsToDrop (max : Nat) : CacheResult (List Text) := do
  let rows := (select (fun _ ↦ true) [⟨2, false⟩, ⟨14, true⟩, ⟨0, true⟩] (c .queryReceipts)).map
    (project [2, 0])
  let pairs ← rows.mapM fun row ↦ do
    let profileId ← rowText row 0 "profile_id"
    let receiptId ← rowText row 1 "receipt_id"
    return (profileId, receiptId)
  return idsBeyond max pairs

/-- The snapshots that a policy drops. -/
def snapshotsToDrop (max : Nat) : CacheResult (List Text) := do
  let rows := (select (fun _ ↦ true) [⟨1, false⟩, ⟨5, true⟩, ⟨0, true⟩] (c .catalogSnapshots)).map
    (project [1, 3, 4, 0])
  let pairs ← rows.mapM fun row ↦ do
    let profileId ← rowText row 0 "profile_id"
    let databaseName ← rowOptText row 1 "database_name"
    let schemaName ← rowOptText row 2 "schema_name"
    let snapshotId ← rowText row 3 "snapshot_id"
    return ((toLex (profileId, toLex (databaseName.elim ⊥ (↑), schemaName.elim ⊥ (↑))) :
      InMemoryCache.ScopeKey), snapshotId)
  return idsBeyond max pairs

/-- Delete a receipt and its partitions. -/
def deleteReceipt (id : Text) : FrankenSqliteCache :=
  Function.update (Function.update c .partitionMetadata (delete (equals 0 id) (c .partitionMetadata)))
    .queryReceipts (delete (equals 0 id) (c .queryReceipts))

def deleteSnapshot (id : Text) : FrankenSqliteCache :=
  Function.update c .catalogSnapshots (delete (equals 0 id) (c .catalogSnapshots))

/-- One part of retention: how many records it evicted, and the tables it leaves. -/
def evict (toDrop : FrankenSqliteCache → Nat → CacheResult (List Text))
    (delete : FrankenSqliteCache → Text → FrankenSqliteCache) : Option Nat → CacheResult Nat × FrankenSqliteCache
  | none => (.ok 0, c)
  | some max =>
      match toDrop c max with
      | .ok ids => (.ok ids.length, ids.foldl delete c)
      | .error e => (.error e, c)

def applyRetention (policy : RetentionPolicy) : CacheResult Nat × FrankenSqliteCache :=
  match c.evict receiptsToDrop deleteReceipt policy.maxReceiptsPerProfile with
  | (.ok evicted, c) =>
      match c.evict snapshotsToDrop deleteSnapshot policy.maxSnapshotsPerScope with
      | (.ok evicted', c) => (.ok (evicted + evicted'), c)
      | (.error e, c) => (.error e, c)
  | (.error e, c) => (.error e, c)

end Retention

end FrankenSqliteCache

end FrankenSnowflake.Cache
