import Mathlib.Data.Char
import Mathlib.Data.Prod.Lex
import Mathlib.Data.List.Lex
import Mathlib.Order.WithBot
import FrankenSnowflake.Core.Redact
import FrankenSnowflake.Foundation.SortedMap
import FrankenSnowflake.Foundation.Utf8

/-!
# The cache contract and its in-memory backend

Ten tables of records.  Append tables keep the first record of a key, upsert
tables and the partition metadata the last one.  A record is checked before it
is stored.
-/

namespace FrankenSnowflake.Cache

open Foundation

/-- A text, as its characters; texts are ordered by code points, which is the
order of their UTF-8 bytes. -/
abbrev Text := List Char

theorem lawfulBEq_text : LawfulBEq Text := inferInstance

/-! ## Errors -/

/-- What is wrong with a row. -/
inductive RowMessage where
  | unsupportedAlgorithm (algorithm : Text)
  | emptyDigest
  | unknownValue (value : Text)
  | wrongType (expected : String)
  | missingColumn
  | notSerialized
deriving DecidableEq, Repr

inductive CacheError where
  | secretRefused (field reason : String)
  | byteLengthMismatch (entity : String) (expected actual : Nat)
  | hashMismatch (entity : String) (expected actual : Text)
  | numericOverflow (field : String) (value : Nat)
  | invalidRow (field : String) (message : RowMessage)
  | io (action fileName : String)
deriving DecidableEq, Repr

abbrev CacheResult := Except CacheError

/-! ## Records -/

inductive AuthLane where
  | programmaticAccessToken
  | keyPairJwt
  | oAuthBearer
  | workloadIdentityFederation
deriving DecidableEq, Repr

inductive CredentialRefKind where
  | env
  | provider
  | none
deriving DecidableEq, Repr

/-- A reference to a credential, not the credential itself. -/
structure CredentialRef where
  kind : CredentialRefKind
  name : Option Text
deriving DecidableEq, Repr

structure ProfileRecord where
  profileId : Text
  displayName : Text
  accountLocatorRedacted : Option Text
  authLane : AuthLane
  credentialRef : CredentialRef
  defaultDatabase : Option Text
  defaultSchema : Option Text
  defaultWarehouse : Option Text
  defaultRole : Option Text
  createdAtMs : Nat
  updatedAtMs : Nat
deriving DecidableEq, Repr

structure ContentAddress where
  algorithm : Text
  digestHex : Text
  byteLen : Nat
deriving DecidableEq, Repr

/-- Canonical payload plus its content address. -/
structure VerifiedPayload where
  canonical : Text
  address : ContentAddress
deriving DecidableEq, Repr

structure CatalogSnapshotRecord where
  snapshotId : Text
  profileId : Text
  sourceKind : Text
  databaseName : Option Text
  schemaName : Option Text
  capturedAtMs : Nat
  payload : VerifiedPayload
deriving DecidableEq, Repr

structure DatasetManifestRecord where
  datasetId : Text
  profileId : Text
  snapshotId : Option Text
  databaseName : Text
  schemaName : Text
  objectName : Text
  rightsClass : Text
  defaultLimit : Nat
  maxRowsWithoutExport : Nat
  manifest : VerifiedPayload
  createdAtMs : Nat
deriving DecidableEq, Repr

structure QueryPlanRecord where
  planId : Text
  profileId : Text
  datasetId : Option Text
  mode : Text
  normalizedSqlHash : Text
  normalizedSqlRedacted : Text
  bindingsShapeJson : Text
  safetyClass : Text
  estimatedRowLimit : Option Nat
  requiresExport : Bool
  createdAtMs : Nat
deriving DecidableEq, Repr

structure QueryReceiptRecord where
  receiptId : Text
  planId : Text
  profileId : Text
  commandId : Text
  traceId : Text
  outcomeKind : Text
  receiptState : Text
  statementHandle : Option Text
  snowflakeQueryId : Option Text
  requestId : Option Text
  rowCount : Option Nat
  receipt : VerifiedPayload
  createdAtMs : Nat
deriving DecidableEq, Repr

structure PartitionMetadataRecord where
  receiptId : Text
  partitionIndex : UInt32
  rowCount : Nat
  compressedBytes : Option Nat
  uncompressedBytes : Option Nat
  payloadHash : Option Text
  contentEncoding : Option Text
deriving DecidableEq, Repr

inductive ExportKind where
  | copyInto
  | localCsv
  | localJsonl
  | localParquet
  | localFrame
deriving DecidableEq, Repr

structure ExportRecord where
  exportId : Text
  receiptId : Text
  exportKind : ExportKind
  targetUriRedacted : Text
  contentAddress : ContentAddress
  rowCount : Option Nat
  createdAtMs : Nat
deriving DecidableEq, Repr

structure CostHistoryRecord where
  historyId : Text
  profileId : Text
  planId : Option Text
  receiptId : Option Text
  rowCount : Option Nat
  compressedBytes : Option Nat
  uncompressedBytes : Option Nat
  costVectorJson : Text
  createdAtMs : Nat
deriving DecidableEq, Repr

structure OfflineReplayBundleRecord where
  bundleId : Text
  sourceReceiptId : Option Text
  snapshotId : Option Text
  artifactDir : Text
  manifest : VerifiedPayload
  createdAtMs : Nat
deriving DecidableEq, Repr

structure AuditEventRecord where
  eventId : Text
  receiptId : Option Text
  commandId : Text
  traceId : Text
  eventKind : Text
  eventJson : Text
  createdAtMs : Nat
deriving DecidableEq, Repr

/-! ## Tables -/

inductive Table where
  | profiles
  | catalogSnapshots
  | datasetManifests
  | queryPlans
  | queryReceipts
  | partitionMetadata
  | exports
  | costHistory
  | replayBundles
  | auditLog
deriving DecidableEq, Repr

namespace Table

/-- The tables, in the order in which they are replayed. -/
def all : List Table :=
  [.profiles, .catalogSnapshots, .datasetManifests, .queryPlans, .queryReceipts,
    .partitionMetadata, .exports, .costHistory, .replayBundles, .auditLog]

def fileName : Table → String
  | profiles => "profiles.jsonl"
  | catalogSnapshots => "catalog_snapshots.jsonl"
  | datasetManifests => "dataset_manifests.jsonl"
  | queryPlans => "query_plans.jsonl"
  | queryReceipts => "query_receipts.jsonl"
  | partitionMetadata => "partition_metadata.jsonl"
  | exports => "exports.jsonl"
  | costHistory => "cost_history.jsonl"
  | replayBundles => "replay_bundles.jsonl"
  | auditLog => "query_audit_log.jsonl"

/-- The records of a table. -/
abbrev Record : Table → Type
  | profiles => ProfileRecord
  | catalogSnapshots => CatalogSnapshotRecord
  | datasetManifests => DatasetManifestRecord
  | queryPlans => QueryPlanRecord
  | queryReceipts => QueryReceiptRecord
  | partitionMetadata => PartitionMetadataRecord
  | exports => ExportRecord
  | costHistory => CostHistoryRecord
  | replayBundles => OfflineReplayBundleRecord
  | auditLog => AuditEventRecord

/-- The keys of a table: an id, or a receipt and the index of a partition. -/
abbrev Key : Table → Type
  | partitionMetadata => Text ×ₗ Nat
  | profiles | catalogSnapshots | datasetManifests | queryPlans | queryReceipts | exports
  | costHistory | replayBundles | auditLog => Text

instance : (t : Table) → LinearOrder t.Key
  | partitionMetadata => inferInstanceAs (LinearOrder (Text ×ₗ Nat))
  | profiles | catalogSnapshots | datasetManifests | queryPlans | queryReceipts | exports
  | costHistory | replayBundles | auditLog => inferInstanceAs (LinearOrder Text)

instance : (t : Table) → DecidableEq t.Record
  | profiles => inferInstanceAs (DecidableEq ProfileRecord)
  | catalogSnapshots => inferInstanceAs (DecidableEq CatalogSnapshotRecord)
  | datasetManifests => inferInstanceAs (DecidableEq DatasetManifestRecord)
  | queryPlans => inferInstanceAs (DecidableEq QueryPlanRecord)
  | queryReceipts => inferInstanceAs (DecidableEq QueryReceiptRecord)
  | partitionMetadata => inferInstanceAs (DecidableEq PartitionMetadataRecord)
  | exports => inferInstanceAs (DecidableEq ExportRecord)
  | costHistory => inferInstanceAs (DecidableEq CostHistoryRecord)
  | replayBundles => inferInstanceAs (DecidableEq OfflineReplayBundleRecord)
  | auditLog => inferInstanceAs (DecidableEq AuditEventRecord)

/-- The key a record is stored under. -/
def key : (t : Table) → t.Record → t.Key
  | profiles, r => r.profileId
  | catalogSnapshots, r => r.snapshotId
  | datasetManifests, r => r.datasetId
  | queryPlans, r => r.planId
  | queryReceipts, r => r.receiptId
  | partitionMetadata, r => toLex (r.receiptId, r.partitionIndex.toNat)
  | exports, r => r.exportId
  | costHistory, r => r.historyId
  | replayBundles, r => r.bundleId
  | auditLog, r => r.eventId

/-- Whether the last record of a key counts, and not the first one. -/
def lastWriteWins : Table → Bool
  | profiles | datasetManifests | queryPlans | partitionMetadata => true
  | _ => false

/-- The tables that compaction rewrites. -/
def isUpsert : Table → Bool
  | profiles | datasetManifests | queryPlans => true
  | _ => false

/-- Put a record in its place: `BTreeMap::insert`, or `entry(key).or_insert`. -/
def put (t : Table) (m : SortedMap t.Key t.Record) (r : t.Record) : SortedMap t.Key t.Record :=
  if t.lastWriteWins || (m.get? (t.key r)).isNone then m.insert (t.key r) r else m

end Table

/-! ## Checks -/

/-- One line of a table log. -/
structure Line (ρ : Type) where
  v : Nat
  r : ρ
deriving DecidableEq, Repr

/-- The functions of other crates: the BLAKE3 digest in hexadecimal, and what
`serde_json` writes for a log line and reads from one. -/
structure Crates where
  blake3Hex : List UInt8 → Text
  toString : (t : Table) → Line t.Record → Text
  fromStr : (t : Table) → Text → Option (Line t.Record)

variable (E : Crates)

def rejectSecretShape (field : String) (value : Text) : CacheResult Unit :=
  let upper := value.map Char.toUpper
  if '\n' ∈ value then
    .error (.secretRefused field "multi-line values are not valid credential references")
  else if Redact.contains upper "BEGIN PRIVATE KEY".toList ||
      Redact.contains upper "BEGIN RSA PRIVATE KEY".toList then
    .error (.secretRefused field "private-key material")
  else if Redact.secretPrefixes.any (·.isPrefixOf value) then
    .error (.secretRefused field "well-known secret prefix")
  else if Redact.containsSecret value then
    .error (.secretRefused field "embedded secret-shaped value")
  else .ok ()

/-- The no-secret invariant of profile metadata. -/
def ProfileRecord.validateSecretFree (r : ProfileRecord) : CacheResult Unit := do
  match r.credentialRef.name with
  | some name => rejectSecretShape "credential_ref.name" name
  | none => pure ()
  match r.accountLocatorRedacted with
  | some account => rejectSecretShape "account_locator_redacted" account
  | none => pure ()

namespace ContentAddress

/-- The address of a payload. -/
def blake3 (payload : List UInt8) : ContentAddress :=
  ⟨"blake3".toList, E.blake3Hex payload, payload.length⟩

/-- Verify byte length and BLAKE3 digest against a canonical payload. -/
def verify (a : ContentAddress) (entity : String) (payload : List UInt8) : CacheResult Unit :=
  if a.byteLen ≠ payload.length then
    .error (.byteLengthMismatch entity a.byteLen payload.length)
  else if a.algorithm ≠ "blake3".toList then
    .error (.invalidRow entity (.unsupportedAlgorithm a.algorithm))
  else if a.digestHex ≠ E.blake3Hex payload then
    .error (.hashMismatch entity a.digestHex (E.blake3Hex payload))
  else .ok ()

/-- The address is well formed; the payload is elsewhere. -/
def verifyWellFormed (a : ContentAddress) (entity : String) : CacheResult Unit :=
  if a.algorithm ≠ "blake3".toList then
    .error (.invalidRow entity (.unsupportedAlgorithm a.algorithm))
  else if a.digestHex.isEmpty then .error (.invalidRow entity .emptyDigest)
  else .ok ()

end ContentAddress

def VerifiedPayload.verify (p : VerifiedPayload) (entity : String) : CacheResult Unit :=
  p.address.verify E entity (Utf8.encode p.canonical)

/-- What every backend checks before it stores a record. -/
def Table.check : (t : Table) → t.Record → CacheResult Unit
  | .profiles, r => r.validateSecretFree
  | .catalogSnapshots, r => r.payload.verify E "catalog_snapshot"
  | .datasetManifests, r => r.manifest.verify E "dataset_manifest"
  | .queryReceipts, r => r.receipt.verify E "query_receipt"
  | .exports, r => r.contentAddress.verifyWellFormed "export_record"
  | .replayBundles, r => r.manifest.verify E "offline_replay_bundle"
  | .queryPlans, _ | .partitionMetadata, _ | .costHistory, _ | .auditLog, _ => .ok ()

end FrankenSnowflake.Cache
