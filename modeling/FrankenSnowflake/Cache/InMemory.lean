import FrankenSnowflake.Cache.Model

/-!
# The in-memory backend

Every table is a map in key order.  Listings are sorted by their own keys, a
newest record is picked with the record's id to break ties, and retention keeps
the newest records of a group.
-/

namespace FrankenSnowflake.Cache

open Foundation

/-- The tables of the in-memory backend. -/
abbrev InMemoryCache := (t : Table) → SortedMap t.Key t.Record

namespace InMemoryCache

def new : InMemoryCache := fun _ ↦ .empty

/-! ## Writes -/

section Writes

variable (E : Crates)

/-- Check a record and store it. -/
def write (c : InMemoryCache) (t : Table) (r : t.Record) : CacheResult InMemoryCache := do
  t.check E r
  return Function.update c t (t.put (c t) r)

def upsertProfile (c : InMemoryCache) := c.write E .profiles

def insertCatalogSnapshot (c : InMemoryCache) := c.write E .catalogSnapshots

def upsertDatasetManifest (c : InMemoryCache) := c.write E .datasetManifests

def upsertQueryPlan (c : InMemoryCache) := c.write E .queryPlans

def appendQueryReceipt (c : InMemoryCache) := c.write E .queryReceipts

def appendPartitionMetadata (c : InMemoryCache) := c.write E .partitionMetadata

def appendExport (c : InMemoryCache) := c.write E .exports

def appendCostHistory (c : InMemoryCache) := c.write E .costHistory

def appendReplayBundle (c : InMemoryCache) := c.write E .replayBundles

def appendAuditEvent (c : InMemoryCache) := c.write E .auditLog

end Writes

/-! ## Lookups -/

/-- The last of the greatest elements: `Iterator::max_by`. -/
def maxBy {α : Type*} (gt : α → α → Bool) : List α → Option α
  | [] => none
  | a :: l => some (l.foldl (fun x y ↦ if gt x y then x else y) a)

/-- Time first, the id among records of one time. -/
def laterThan {α : Type*} (time : α → Nat) (id : α → Text) (a b : α) : Bool :=
  time b < time a || time a = time b && id b < id a

/-- Whether a snapshot is of a profile and, where one is asked for, of a
database and a schema. -/
def inScope (profileId : Text) (databaseName schemaName : Option Text)
    (r : CatalogSnapshotRecord) : Bool :=
  r.profileId = profileId && databaseName.all (r.databaseName = some ·) &&
    schemaName.all (r.schemaName = some ·)

section Lookups

variable (c : InMemoryCache)

def profile (profileId : Text) : Option ProfileRecord := (c .profiles).get? profileId

def profiles : List ProfileRecord := (c .profiles).values

def catalogSnapshot (snapshotId : Text) : Option CatalogSnapshotRecord :=
  (c .catalogSnapshots).get? snapshotId

def latestCatalogSnapshot (profileId : Text) (databaseName schemaName : Option Text) :
    Option CatalogSnapshotRecord :=
  maxBy (laterThan (·.capturedAtMs) (·.snapshotId))
    ((c .catalogSnapshots).values.filter (inScope profileId databaseName schemaName))

def catalogSnapshots (profileId : Text) (databaseName schemaName : Option Text) :
    List CatalogSnapshotRecord :=
  ((c .catalogSnapshots).values.filter (inScope profileId databaseName schemaName)).mergeSort
    fun a b ↦ !laterThan (·.capturedAtMs) (·.snapshotId) b a

def datasetManifest (datasetId : Text) : Option DatasetManifestRecord :=
  (c .datasetManifests).get? datasetId

def datasetIds : List Text := (c .datasetManifests).keys

def queryPlan (planId : Text) : Option QueryPlanRecord := (c .queryPlans).get? planId

def queryReceipt (receiptId : Text) : Option QueryReceiptRecord :=
  (c .queryReceipts).get? receiptId

def latestSuccessfulReceipt (planId : Text) : Option QueryReceiptRecord :=
  maxBy (fun a b ↦ b.createdAtMs < a.createdAtMs)
    ((c .queryReceipts).values.filter fun r ↦ r.planId = planId && r.outcomeKind = "ok".toList)

def receiptBySnowflakeQueryId (profileId snowflakeQueryId : Text) : Option QueryReceiptRecord :=
  maxBy (fun a b ↦ b.createdAtMs < a.createdAtMs)
    ((c .queryReceipts).values.filter fun r ↦
      r.profileId = profileId && r.snowflakeQueryId = some snowflakeQueryId)

def partitionsForReceipt (receiptId : Text) : List PartitionMetadataRecord :=
  (c .partitionMetadata).values.filter (·.receiptId = receiptId)

/-- Newest first, by id among records of one time. -/
def newestThenId {α : Type*} (time : α → Nat) (id : α → Text) (a b : α) : Bool :=
  time b < time a || time a = time b && id a ≤ id b

def exportsForReceipt (receiptId : Text) : List ExportRecord :=
  ((c .exports).values.filter (·.receiptId = receiptId)).mergeSort
    (newestThenId (·.createdAtMs) (·.exportId))

def «export» (exportId : Text) : Option ExportRecord := (c .exports).get? exportId

def costHistoryForProfile (profileId : Text) : List CostHistoryRecord :=
  ((c .costHistory).values.filter (·.profileId = profileId)).mergeSort
    (newestThenId (·.createdAtMs) (·.historyId))

def auditEvents : List AuditEventRecord :=
  (c .auditLog).values.mergeSort fun a b ↦ !laterThan (·.createdAtMs) (·.eventId) a b

end Lookups

end InMemoryCache

/-- The lookups of a backend. -/
inductive Lookup where
  | profile (profileId : Text)
  | profiles
  | catalogSnapshot (snapshotId : Text)
  | latestCatalogSnapshot (profileId : Text) (databaseName schemaName : Option Text)
  | catalogSnapshots (profileId : Text) (databaseName schemaName : Option Text)
  | datasetManifest (datasetId : Text)
  | datasetIds
  | queryPlan (planId : Text)
  | queryReceipt (receiptId : Text)
  | latestSuccessfulReceipt (planId : Text)
  | receiptBySnowflakeQueryId (profileId snowflakeQueryId : Text)
  | partitionsForReceipt (receiptId : Text)
  | exportsForReceipt (receiptId : Text)
  | «export» (exportId : Text)
  | costHistoryForProfile (profileId : Text)
  | auditEvents
deriving DecidableEq

/-- What a lookup answers: a record or none, a listing, or ids. -/
inductive Answer where
  | record (t : Table) (r : Option t.Record)
  | records (t : Table) (rs : List t.Record)
  | ids (ids : List Text)

namespace Lookup

/-- The table a lookup reads. -/
def table : Lookup → Table
  | profile _ | profiles => .profiles
  | catalogSnapshot _ | latestCatalogSnapshot .. | catalogSnapshots .. => .catalogSnapshots
  | datasetManifest _ | datasetIds => .datasetManifests
  | queryPlan _ => .queryPlans
  | queryReceipt _ | latestSuccessfulReceipt _ | receiptBySnowflakeQueryId .. => .queryReceipts
  | partitionsForReceipt _ => .partitionMetadata
  | exportsForReceipt _ | «export» _ => .exports
  | costHistoryForProfile _ => .costHistory
  | auditEvents => .auditLog

/-- The answer of the in-memory backend. -/
def answer (c : InMemoryCache) : Lookup → Answer
  | profile id => .record .profiles (c.profile id)
  | profiles => .records .profiles c.profiles
  | catalogSnapshot id => .record .catalogSnapshots (c.catalogSnapshot id)
  | latestCatalogSnapshot p d s => .record .catalogSnapshots (c.latestCatalogSnapshot p d s)
  | catalogSnapshots p d s => .records .catalogSnapshots (c.catalogSnapshots p d s)
  | datasetManifest id => .record .datasetManifests (c.datasetManifest id)
  | datasetIds => .ids c.datasetIds
  | queryPlan id => .record .queryPlans (c.queryPlan id)
  | queryReceipt id => .record .queryReceipts (c.queryReceipt id)
  | latestSuccessfulReceipt id => .record .queryReceipts (c.latestSuccessfulReceipt id)
  | receiptBySnowflakeQueryId p q => .record .queryReceipts (c.receiptBySnowflakeQueryId p q)
  | partitionsForReceipt id => .records .partitionMetadata (c.partitionsForReceipt id)
  | exportsForReceipt id => .records .exports (c.exportsForReceipt id)
  | «export» id => .record .exports (c.export id)
  | costHistoryForProfile id => .records .costHistory (c.costHistoryForProfile id)
  | auditEvents => .records .auditLog c.auditEvents

/-- A lookup reads one table. -/
theorem answer_congr {c c' : InMemoryCache} (l : Lookup) (h : c l.table = c' l.table) :
    l.answer c = l.answer c' := by
  cases l <;> simp only [answer, table, InMemoryCache.profile, InMemoryCache.profiles,
    InMemoryCache.catalogSnapshot, InMemoryCache.latestCatalogSnapshot,
    InMemoryCache.catalogSnapshots, InMemoryCache.datasetManifest, InMemoryCache.datasetIds,
    InMemoryCache.queryPlan, InMemoryCache.queryReceipt, InMemoryCache.latestSuccessfulReceipt,
    InMemoryCache.receiptBySnowflakeQueryId, InMemoryCache.partitionsForReceipt,
    InMemoryCache.exportsForReceipt, InMemoryCache.export, InMemoryCache.costHistoryForProfile,
    InMemoryCache.auditEvents] at h ⊢ <;> rw [h]

end Lookup

/-! ## Retention -/

/-- How many of the newest receipts of a profile, and snapshots of a scope, to keep. -/
structure RetentionPolicy where
  maxReceiptsPerProfile : Option Nat
  maxSnapshotsPerScope : Option Nat
deriving DecidableEq, Repr

namespace InMemoryCache

/-- Collect values by a group, in the order of the list. -/
def groupBy {α κ β : Type} [LinearOrder κ] (group : α → κ) (value : α → β) (l : List α) :
    SortedMap κ (List β) :=
  l.foldl (fun m a ↦ m.insert (group a) (((m.get? (group a)).getD []) ++ [value a])) .empty

/-- The ids that stand behind the first `max` of their group, newest first. -/
def beyond {κ : Type} [LinearOrder κ] (max : Nat) (groups : SortedMap κ (List (Nat × Text))) :
    List Text :=
  groups.values.flatMap fun records ↦
    ((records.mergeSort fun a b ↦ !laterThan Prod.fst Prod.snd b a).drop max).map Prod.snd

/-- The receipts that a policy drops. -/
def receiptsToDrop (c : InMemoryCache) (max : Nat) : List Text :=
  beyond max (groupBy QueryReceiptRecord.profileId (fun r ↦ (r.createdAtMs, r.receiptId))
    (c .queryReceipts).values)

/-- Profile, database and schema of a snapshot; no name is the least one. -/
abbrev ScopeKey := Text ×ₗ WithBot Text ×ₗ WithBot Text

def scopeKey (r : CatalogSnapshotRecord) : ScopeKey :=
  toLex (r.profileId, toLex (r.databaseName.elim ⊥ (↑), r.schemaName.elim ⊥ (↑)))

/-- The snapshots that a policy drops. -/
def snapshotsToDrop (c : InMemoryCache) (max : Nat) : List Text :=
  beyond max (groupBy scopeKey (fun r ↦ (r.capturedAtMs, r.snapshotId))
    (c .catalogSnapshots).values)

/-- Remove a receipt and the partitions of a receipt that was there. -/
def evictReceipt (s : InMemoryCache × Nat) (id : Text) : InMemoryCache × Nat :=
  if ((s.1 .queryReceipts).get? id).isSome then
    (Function.update (Function.update s.1 .queryReceipts
        ((s.1 .queryReceipts).filter fun k _ ↦ decide (k ≠ id)))
      .partitionMetadata ((s.1 .partitionMetadata).filter fun k _ ↦ decide ((ofLex k).1 ≠ id)),
      s.2 + 1)
  else s

/-- Remove a snapshot. -/
def evictSnapshot (s : InMemoryCache × Nat) (id : Text) : InMemoryCache × Nat :=
  if ((s.1 .catalogSnapshots).get? id).isSome then
    (Function.update s.1 .catalogSnapshots
      ((s.1 .catalogSnapshots).filter fun k _ ↦ decide (k ≠ id)), s.2 + 1)
  else s

/-- The tables that retention leaves, and how many records it evicted. -/
def applyRetentionInMemory (c : InMemoryCache) (policy : RetentionPolicy) : InMemoryCache × Nat :=
  let s := match policy.maxReceiptsPerProfile with
    | some max => (c.receiptsToDrop max).foldl evictReceipt (c, 0)
    | none => (c, 0)
  match policy.maxSnapshotsPerScope with
  | some max => (s.1.snapshotsToDrop max).foldl evictSnapshot s
  | none => s

end InMemoryCache

end FrankenSnowflake.Cache
