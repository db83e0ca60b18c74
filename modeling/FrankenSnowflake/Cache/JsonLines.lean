import FrankenSnowflake.Cache.FileLog
import FrankenSnowflake.Foundation.JsonPrint

/-!
# Log lines as JSON

The lines that `serde_json` writes: a record is the object of its fields, in the
order of their declaration, and a line is the object of its version and its
record.  A line is read by looking for the record it was written for.
-/

namespace FrankenSnowflake.Cache

open Foundation Foundation.Json

/-- An object with these members. -/
def object : List (String × Value) → Value := fun ms ↦
  .object (ms.foldr (fun m ms ↦ .cons m.1.toList m.2 ms) .nil)

def optional {α : Type} (f : α → Value) : Option α → Value
  | none => .null
  | some a => f a

def AuthLane.json : AuthLane → Value
  | programmaticAccessToken => .string "programmatic_access_token".toList
  | keyPairJwt => .string "key_pair_jwt".toList
  | oAuthBearer => .string "o_auth_bearer".toList
  | workloadIdentityFederation => .string "workload_identity_federation".toList

def CredentialRefKind.json : CredentialRefKind → Value
  | env => .string "env".toList
  | provider => .string "provider".toList
  | none => .string "none".toList

def ExportKind.json : ExportKind → Value
  | copyInto => .string "copy_into".toList
  | localCsv => .string "local_csv".toList
  | localJsonl => .string "local_jsonl".toList
  | localParquet => .string "local_parquet".toList
  | localFrame => .string "local_frame".toList

def ContentAddress.json (a : ContentAddress) : Value :=
  object [("algorithm", .string a.algorithm), ("digest_hex", .string a.digestHex),
    ("byte_len", .number a.byteLen)]

def VerifiedPayload.json (p : VerifiedPayload) : Value :=
  object [("canonical", .string p.canonical), ("address", p.address.json)]

def CredentialRef.json (c : CredentialRef) : Value :=
  object [("kind", c.kind.json), ("name", optional .string c.name)]

/-- The object of a record. -/
def Table.json : (t : Table) → t.Record → Value
  | .profiles, r => object [("profile_id", .string r.profileId),
      ("display_name", .string r.displayName),
      ("account_locator_redacted", optional .string r.accountLocatorRedacted),
      ("auth_lane", r.authLane.json), ("credential_ref", r.credentialRef.json),
      ("default_database", optional .string r.defaultDatabase),
      ("default_schema", optional .string r.defaultSchema),
      ("default_warehouse", optional .string r.defaultWarehouse),
      ("default_role", optional .string r.defaultRole), ("created_at_ms", .number r.createdAtMs),
      ("updated_at_ms", .number r.updatedAtMs)]
  | .catalogSnapshots, r => object [("snapshot_id", .string r.snapshotId),
      ("profile_id", .string r.profileId), ("source_kind", .string r.sourceKind),
      ("database_name", optional .string r.databaseName),
      ("schema_name", optional .string r.schemaName), ("captured_at_ms", .number r.capturedAtMs),
      ("payload", r.payload.json)]
  | .datasetManifests, r => object [("dataset_id", .string r.datasetId),
      ("profile_id", .string r.profileId), ("snapshot_id", optional .string r.snapshotId),
      ("database_name", .string r.databaseName), ("schema_name", .string r.schemaName),
      ("object_name", .string r.objectName), ("rights_class", .string r.rightsClass),
      ("default_limit", .number r.defaultLimit),
      ("max_rows_without_export", .number r.maxRowsWithoutExport), ("manifest", r.manifest.json),
      ("created_at_ms", .number r.createdAtMs)]
  | .queryPlans, r => object [("plan_id", .string r.planId), ("profile_id", .string r.profileId),
      ("dataset_id", optional .string r.datasetId), ("mode", .string r.mode),
      ("normalized_sql_hash", .string r.normalizedSqlHash),
      ("normalized_sql_redacted", .string r.normalizedSqlRedacted),
      ("bindings_shape_json", .string r.bindingsShapeJson), ("safety_class", .string r.safetyClass),
      ("estimated_row_limit", optional .number r.estimatedRowLimit),
      ("requires_export", .bool r.requiresExport), ("created_at_ms", .number r.createdAtMs)]
  | .queryReceipts, r => object [("receipt_id", .string r.receiptId), ("plan_id", .string r.planId),
      ("profile_id", .string r.profileId), ("command_id", .string r.commandId),
      ("trace_id", .string r.traceId), ("outcome_kind", .string r.outcomeKind),
      ("receipt_state", .string r.receiptState),
      ("statement_handle", optional .string r.statementHandle),
      ("snowflake_query_id", optional .string r.snowflakeQueryId),
      ("request_id", optional .string r.requestId), ("row_count", optional .number r.rowCount),
      ("receipt", r.receipt.json), ("created_at_ms", .number r.createdAtMs)]
  | .partitionMetadata, r => object [("receipt_id", .string r.receiptId),
      ("partition_index", .number r.partitionIndex.toNat), ("row_count", .number r.rowCount),
      ("compressed_bytes", optional .number r.compressedBytes),
      ("uncompressed_bytes", optional .number r.uncompressedBytes),
      ("payload_hash", optional .string r.payloadHash),
      ("content_encoding", optional .string r.contentEncoding)]
  | .exports, r => object [("export_id", .string r.exportId), ("receipt_id", .string r.receiptId),
      ("export_kind", r.exportKind.json), ("target_uri_redacted", .string r.targetUriRedacted),
      ("content_address", r.contentAddress.json), ("row_count", optional .number r.rowCount),
      ("created_at_ms", .number r.createdAtMs)]
  | .costHistory, r => object [("history_id", .string r.historyId),
      ("profile_id", .string r.profileId), ("plan_id", optional .string r.planId),
      ("receipt_id", optional .string r.receiptId), ("row_count", optional .number r.rowCount),
      ("compressed_bytes", optional .number r.compressedBytes),
      ("uncompressed_bytes", optional .number r.uncompressedBytes),
      ("cost_vector_json", .string r.costVectorJson), ("created_at_ms", .number r.createdAtMs)]
  | .replayBundles, r => object [("bundle_id", .string r.bundleId),
      ("source_receipt_id", optional .string r.sourceReceiptId),
      ("snapshot_id", optional .string r.snapshotId), ("artifact_dir", .string r.artifactDir),
      ("manifest", r.manifest.json), ("created_at_ms", .number r.createdAtMs)]
  | .auditLog, r => object [("event_id", .string r.eventId),
      ("receipt_id", optional .string r.receiptId), ("command_id", .string r.commandId),
      ("trace_id", .string r.traceId), ("event_kind", .string r.eventKind),
      ("event_json", .string r.eventJson), ("created_at_ms", .number r.createdAtMs)]

/-- The object of a line. -/
def Line.json (t : Table) (l : Line t.Record) : Value :=
  object [("v", .number l.v), ("r", t.json l.r)]

/-! ## Lines determine their records -/

@[simp] theorem object_inj {m m' : String × Value} {ms ms' : List (String × Value)} :
    object (m :: ms) = object (m' :: ms') ↔
      m.1 = m'.1 ∧ m.2 = m'.2 ∧ object ms = object ms' := by
  simp [object, String.toList_inj]

@[simp] theorem optional_string_inj {s s' : Option Text} :
    optional .string s = optional .string s' ↔ s = s' := by
  cases s <;> cases s' <;> simp [optional]

@[simp] theorem optional_number_inj {n n' : Option Nat} :
    optional .number n = optional .number n' ↔ n = n' := by
  cases n <;> cases n' <;> simp [optional]

@[simp] theorem AuthLane.json_inj {a a' : AuthLane} : a.json = a'.json ↔ a = a' := by
  cases a <;> cases a' <;> simp [AuthLane.json]

@[simp] theorem CredentialRefKind.json_inj {k k' : CredentialRefKind} :
    k.json = k'.json ↔ k = k' := by
  cases k <;> cases k' <;> simp [CredentialRefKind.json]

@[simp] theorem ExportKind.json_inj {k k' : ExportKind} : k.json = k'.json ↔ k = k' := by
  cases k <;> cases k' <;> simp [ExportKind.json]

@[simp] theorem ContentAddress.json_inj {a a' : ContentAddress} : a.json = a'.json ↔ a = a' := by
  cases a
  cases a'
  simp [ContentAddress.json]

@[simp] theorem VerifiedPayload.json_inj {p p' : VerifiedPayload} : p.json = p'.json ↔ p = p' := by
  cases p
  cases p'
  simp [VerifiedPayload.json]

@[simp] theorem CredentialRef.json_inj {c c' : CredentialRef} : c.json = c'.json ↔ c = c' := by
  cases c
  cases c'
  simp [CredentialRef.json]

theorem Table.json_inj {t : Table} {r r' : t.Record} : t.json r = t.json r' ↔ r = r' := by
  cases t <;> cases r <;> cases r' <;> simp [Table.json, UInt32.toNat_inj]

theorem Line.json_inj {t : Table} {l l' : Line t.Record} : Line.json t l = Line.json t l' ↔ l = l' := by
  cases l
  cases l'
  simp [Line.json, Table.json_inj]

/-! ## Lines as text -/

/-- The text of a line. -/
def Line.text (t : Table) (l : Line t.Record) : Text := print (l.json t)

theorem Line.text_injective (t : Table) : Function.Injective (Line.text t) :=
  fun _ _ h ↦ Line.json_inj.mp (print_injective h)

/-- Lines are written as `serde_json` writes them and read back where they are
written so; for a digest there are the digits of the payload. -/
noncomputable def jsonCrates : Crates where
  blake3Hex payload := payload.flatMap fun b ↦
    [hexDigit (b.toNat / 16), hexDigit (b.toNat % 16)]
  toString := Line.text
  fromStr t := Function.partialInv (Line.text t)

theorem jsonCrates_lawful : jsonCrates.Lawful where
  fromStr_toString {t} l := Function.partialInv_left (Line.text_injective t) l
  plain {t l} := plain_print (l.json t)
  head l := ⟨_, rfl⟩
  written {t} l := derives_print (l.json t)
  read {t s l} h := by
    have htext : Line.text t l = s :=
      ((Line.text_injective t).isPartialInv _ _).mp h
    exact ⟨[], Utf8.encode s, [], .nil, .nil, htext ▸ derives_print (l.json t), by simp⟩

end FrankenSnowflake.Cache
