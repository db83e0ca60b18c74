import FrankenSnowflake.Cache.FileLog
import FrankenSnowflake.Cache.Sqlite

/-!
# Rows and records

Records whose numbers fit into the columns are written as rows, which are read
back as the records.
-/

namespace FrankenSnowflake.Cache.FrankenSqliteCache

open Foundation Foundation.Sql

/-! ## Writing rows -/

/-- A number that fits into a column. -/
def Fits (n : Nat) : Prop := n ≤ i64Max

/-- A number, if there is one, that fits into a column. -/
def FitsIfAny (n : Option Nat) : Prop := ∀ m ∈ n, Fits m

/-- The numbers of a record fit into its columns. -/
def Bounded : (t : Table) → t.Record → Prop
  | .profiles, r => Fits r.createdAtMs ∧ Fits r.updatedAtMs
  | .catalogSnapshots, r => Fits r.capturedAtMs ∧ Fits r.payload.address.byteLen
  | .datasetManifests, r => Fits r.defaultLimit ∧ Fits r.maxRowsWithoutExport ∧
      Fits r.manifest.address.byteLen ∧ Fits r.createdAtMs
  | .queryPlans, r => FitsIfAny r.estimatedRowLimit ∧ Fits r.createdAtMs
  | .queryReceipts, r => FitsIfAny r.rowCount ∧ Fits r.receipt.address.byteLen ∧ Fits r.createdAtMs
  | .partitionMetadata, r => Fits r.rowCount ∧ FitsIfAny r.compressedBytes ∧
      FitsIfAny r.uncompressedBytes
  | .exports, r => Fits r.contentAddress.byteLen ∧ FitsIfAny r.rowCount ∧ Fits r.createdAtMs
  | .costHistory, r => FitsIfAny r.rowCount ∧ FitsIfAny r.compressedBytes ∧
      FitsIfAny r.uncompressedBytes ∧ Fits r.createdAtMs
  | .replayBundles, r => Fits r.manifest.address.byteLen ∧ Fits r.createdAtMs
  | .auditLog, r => Fits r.createdAtMs

/-- The column of a number, if there is one. -/
def optNat : Option Nat → Value
  | some n => .integer n
  | none => .null

/-- The row of a record. -/
def rowOf : (t : Table) → t.Record → Row
  | .profiles, r => [.text r.profileId, .text r.displayName, optText r.accountLocatorRedacted,
      .text (authLaneToStr r.authLane), .text (credentialRefKindToStr r.credentialRef.kind),
      optText r.credentialRef.name, optText r.defaultDatabase, optText r.defaultSchema,
      optText r.defaultWarehouse, optText r.defaultRole, .integer r.createdAtMs,
      .integer r.updatedAtMs]
  | .catalogSnapshots, r => [.text r.snapshotId, .text r.profileId, .text r.sourceKind,
      optText r.databaseName, optText r.schemaName, .integer r.capturedAtMs,
      .text r.payload.canonical, .text r.payload.address.digestHex,
      .integer r.payload.address.byteLen]
  | .datasetManifests, r => [.text r.datasetId, .text r.profileId, optText r.snapshotId,
      .text r.databaseName, .text r.schemaName, .text r.objectName, .text r.rightsClass,
      .integer r.defaultLimit, .integer r.maxRowsWithoutExport, .text r.manifest.canonical,
      .text r.manifest.address.digestHex, .integer r.manifest.address.byteLen,
      .integer r.createdAtMs]
  | .queryPlans, r => [.text r.planId, .text r.profileId, optText r.datasetId, .text r.mode,
      .text r.normalizedSqlHash, .text r.normalizedSqlRedacted, .text r.bindingsShapeJson,
      .text r.safetyClass, optNat r.estimatedRowLimit,
      .integer (if r.requiresExport then 1 else 0), .integer r.createdAtMs]
  | .queryReceipts, r => [.text r.receiptId, .text r.planId, .text r.profileId, .text r.commandId,
      .text r.traceId, .text r.outcomeKind, .text r.receiptState, optText r.statementHandle,
      optText r.snowflakeQueryId, optText r.requestId, optNat r.rowCount, .text r.receipt.canonical,
      .text r.receipt.address.digestHex, .integer r.receipt.address.byteLen, .integer r.createdAtMs]
  | .partitionMetadata, r => [.text r.receiptId, .integer r.partitionIndex.toNat,
      .integer r.rowCount, optNat r.compressedBytes, optNat r.uncompressedBytes,
      optText r.payloadHash, optText r.contentEncoding]
  | .exports, r => [.text r.exportId, .text r.receiptId, .text (exportKindToStr r.exportKind),
      .text r.targetUriRedacted, .text r.contentAddress.digestHex, .integer r.contentAddress.byteLen,
      optNat r.rowCount, .integer r.createdAtMs]
  | .costHistory, r => [.text r.historyId, .text r.profileId, optText r.planId,
      optText r.receiptId, optNat r.rowCount, optNat r.compressedBytes,
      optNat r.uncompressedBytes, .text r.costVectorJson, .integer r.createdAtMs]
  | .replayBundles, r => [.text r.bundleId, optText r.sourceReceiptId, optText r.snapshotId,
      .text r.artifactDir, .text r.manifest.canonical, .text r.manifest.address.digestHex,
      .integer r.manifest.address.byteLen, .integer r.createdAtMs]
  | .auditLog, r => [.text r.eventId, optText r.receiptId, .text r.commandId, .text r.traceId,
      .text r.eventKind, .text r.eventJson, .integer r.createdAtMs]

theorem u64Value_of_fits {field : String} {n : Nat} (h : Fits n) :
    u64Value field n = .ok (.integer n) := if_pos h

theorem optU64_of_fits {field : String} {n : Option Nat} (h : FitsIfAny n) :
    optU64 field n = .ok (optNat n) := by
  cases n with
  | none => rfl
  | some n => exact u64Value_of_fits (h n rfl)

theorem params_eq {t : Table} {r : t.Record} (h : Bounded t r) : params t r = .ok (rowOf t r) := by
  cases t <;> simp only [Bounded] at h <;>
    simp [params, u64Value_of_fits, optU64_of_fits, h, bind, Except.bind, pure, Except.pure, rowOf]

/-- Rows of one table have the same primary key iff their records do. -/
theorem primaryKey_rowOf {t : Table} {r r' : t.Record} :
    primaryKey (primaryKeyColumns t) (rowOf t r) = primaryKey (primaryKeyColumns t) (rowOf t r') ↔
      t.key r = t.key r' := by
  cases t with
  | partitionMetadata =>
      simp only [primaryKey, primaryKeyColumns, rowOf, Row.col, Table.key, List.map_cons,
        List.map_nil, List.getD_cons_zero, List.getD_cons_succ, List.cons.injEq, Value.text.injEq,
        Value.integer.injEq, and_true, EmbeddingLike.apply_eq_iff_eq, Prod.mk.injEq]
      exact and_congr_right fun _ ↦ Int.natCast_inj
  | _ => simp [primaryKey, primaryKeyColumns, rowOf, Row.col, Table.key]

/-! ## Reading rows -/

section Columns

variable {row : Row} {v : Value} {field : String} {index : Nat}

@[simp] theorem rowText_zero {s : Text} : rowText (.text s :: row) 0 field = .ok s := rfl

@[simp] theorem rowText_succ : rowText (v :: row) (index + 1) field = rowText row index field := rfl

@[simp] theorem rowOptText_zero {s : Option Text} :
    rowOptText (optText s :: row) 0 field = .ok s := by cases s <;> rfl

@[simp] theorem rowOptText_succ :
    rowOptText (v :: row) (index + 1) field = rowOptText row index field := rfl

@[simp] theorem rowU64_zero {n : Nat} : rowU64 (.integer n :: row) 0 field = .ok n := rfl

@[simp] theorem rowU64_succ : rowU64 (v :: row) (index + 1) field = rowU64 row index field := rfl

@[simp] theorem rowOptU64_zero {n : Option Nat} :
    rowOptU64 (optNat n :: row) 0 field = .ok n := by cases n <;> rfl

@[simp] theorem rowOptU64_succ :
    rowOptU64 (v :: row) (index + 1) field = rowOptU64 row index field := rfl

@[simp] theorem rowBool_zero {b : Bool} :
    rowBool (.integer (if b then 1 else 0) :: row) 0 field = .ok b := by cases b <;> rfl

@[simp] theorem rowBool_succ : rowBool (v :: row) (index + 1) field = rowBool row index field := rfl

@[simp] theorem rowU32_zero {n : UInt32} : rowU32 (.integer n.toNat :: row) 0 field = .ok n := by
  simp [rowU32, bind, Except.bind, n.toNat_lt]

@[simp] theorem rowU32_succ : rowU32 (v :: row) (index + 1) field = rowU32 row index field := rfl

end Columns

@[simp] theorem authLaneFromStr_authLaneToStr (lane : AuthLane) :
    authLaneFromStr (authLaneToStr lane) = .ok lane := by
  cases lane <;> decide +kernel

@[simp] theorem credentialRefKindFromStr_credentialRefKindToStr (kind : CredentialRefKind) :
    credentialRefKindFromStr (credentialRefKindToStr kind) = .ok kind := by
  cases kind <;> decide +kernel

@[simp] theorem exportKindFromStr_exportKindToStr (kind : ExportKind) :
    exportKindFromStr (exportKindToStr kind) = .ok kind := by
  cases kind <;> decide +kernel

section Records

variable {E : Crates}

theorem verify_eq_ok {p : VerifiedPayload} {entity : String} (h : p.verify E entity = .ok ()) :
    p.address.algorithm = "blake3".toList := by
  unfold VerifiedPayload.verify ContentAddress.verify at h
  split_ifs at h with hlen halgorithm hdigest
  exact not_not.mp halgorithm

theorem verifyWellFormed_eq_ok {a : ContentAddress} {entity : String}
    (h : a.verifyWellFormed entity = .ok ()) : a.algorithm = "blake3".toList := by
  unfold ContentAddress.verifyWellFormed at h
  split_ifs at h with halgorithm hdigest
  exact not_not.mp halgorithm

/-- A payload that was verified is read back. -/
theorem payloadFromRow_eq {row : Row} {jsonIndex hashIndex bytesIndex : Nat} {entity : String}
    {p : VerifiedPayload} (h : p.verify E entity = .ok ())
    (hjson : rowText row jsonIndex entity = .ok p.canonical)
    (hhash : rowText row hashIndex entity = .ok p.address.digestHex)
    (hbytes : rowU64 row bytesIndex entity = .ok p.address.byteLen) :
    payloadFromRow E row jsonIndex hashIndex bytesIndex entity = .ok p := by
  have halgorithm := verify_eq_ok h
  obtain ⟨canonical, algorithm, digestHex, byteLen⟩ := p
  obtain rfl : algorithm = "blake3".toList := halgorithm
  unfold payloadFromRow
  rw [hjson, hhash, hbytes]
  simp only [bind, Except.bind, h]
  rfl

theorem rowProfile_rowOf (r : ProfileRecord) : rowProfile (rowOf .profiles r) = .ok r := by
  simp [rowProfile, rowOf, bind, Except.bind, pure, Except.pure]

theorem rowCatalogSnapshot_rowOf {r : CatalogSnapshotRecord}
    (h : Table.check E .catalogSnapshots r = .ok ()) :
    rowCatalogSnapshot E (rowOf .catalogSnapshots r) = .ok r := by
  have hpayload : payloadFromRow E (rowOf .catalogSnapshots r) 6 7 8 "catalog_snapshot" =
      .ok r.payload := payloadFromRow_eq h (by simp [rowOf]) (by simp [rowOf]) (by simp [rowOf])
  unfold rowCatalogSnapshot
  rw [hpayload]
  simp [rowOf, bind, Except.bind, pure, Except.pure]

theorem rowDatasetManifest_rowOf {r : DatasetManifestRecord}
    (h : Table.check E .datasetManifests r = .ok ()) :
    rowDatasetManifest E (rowOf .datasetManifests r) = .ok r := by
  have hpayload : payloadFromRow E (rowOf .datasetManifests r) 9 10 11 "dataset_manifest" =
      .ok r.manifest := payloadFromRow_eq h (by simp [rowOf]) (by simp [rowOf]) (by simp [rowOf])
  unfold rowDatasetManifest
  rw [hpayload]
  simp [rowOf, bind, Except.bind, pure, Except.pure]

theorem rowQueryPlan_rowOf (r : QueryPlanRecord) : rowQueryPlan (rowOf .queryPlans r) = .ok r := by
  simp [rowQueryPlan, rowOf, bind, Except.bind, pure, Except.pure]

theorem rowQueryReceipt_rowOf {r : QueryReceiptRecord}
    (h : Table.check E .queryReceipts r = .ok ()) :
    rowQueryReceipt E (rowOf .queryReceipts r) = .ok r := by
  have hpayload : payloadFromRow E (rowOf .queryReceipts r) 11 12 13 "query_receipt" =
      .ok r.receipt := payloadFromRow_eq h (by simp [rowOf]) (by simp [rowOf]) (by simp [rowOf])
  unfold rowQueryReceipt
  rw [hpayload]
  simp [rowOf, bind, Except.bind, pure, Except.pure]

theorem rowPartitionMetadata_rowOf (r : PartitionMetadataRecord) :
    rowPartitionMetadata (rowOf .partitionMetadata r) = .ok r := by
  simp [rowPartitionMetadata, rowOf, bind, Except.bind, pure, Except.pure]

theorem rowExport_rowOf {r : ExportRecord} (h : Table.check E .exports r = .ok ()) :
    rowExport (rowOf .exports r) = .ok r := by
  have halgorithm := verifyWellFormed_eq_ok h
  obtain ⟨exportId, receiptId, exportKind, uri, ⟨algorithm, digestHex, byteLen⟩, rowCount, created⟩ := r
  obtain rfl : algorithm = "blake3".toList := halgorithm
  simp [rowExport, rowOf, bind, Except.bind, pure, Except.pure]

theorem rowCostHistory_rowOf (r : CostHistoryRecord) :
    rowCostHistory (rowOf .costHistory r) = .ok r := by
  simp [rowCostHistory, rowOf, bind, Except.bind, pure, Except.pure]

theorem rowAuditEvent_rowOf (r : AuditEventRecord) : rowAuditEvent (rowOf .auditLog r) = .ok r := by
  simp [rowAuditEvent, rowOf, bind, Except.bind, pure, Except.pure]

end Records

end FrankenSnowflake.Cache.FrankenSqliteCache
