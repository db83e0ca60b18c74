import FrankenSnowflake.Cache.InMemory
import FrankenSnowflake.Foundation.Lines
import FrankenSnowflake.Foundation.Program
import FrankenSnowflake.Foundation.Unicode

/-!
# The file cache

Every table is a log of one JSON line for each write.  A handle folds a log into
its own in-memory tables when it first needs the table, appends a line for each
write, and rewrites upsert tables that have many superseded lines.  An operation
is a program whose requests are the accesses to the files, so that it can be run
alone or between the accesses of another handle.
-/

namespace FrankenSnowflake.Cache

open Foundation

attribute [local instance] lawfulBEq_text

/-- Log-line format version. -/
def lineVersion : Nat := 1

/-- Superseded lines that trigger a compaction. -/
def lazyCompactMinSupersededLines : Nat := 64

/-! ## Accesses to the directory -/

/-- An access to the log of a table: read it, append bytes, or write a temporary
file and rename it over the log.  A rewrite is labelled with the keys that its
caller evicted; nothing is done with the label. -/
inductive FileAction where
  | read (t : Table)
  | append (t : Table) (bytes : List UInt8)
  | rewrite (t : Table) (bytes : List UInt8) (evicted : t.Key → Bool)

/-- The content of a log that exists, nothing, or whether the temporary file was
there to be renamed. -/
abbrev FileAction.Reply : FileAction → Type
  | read _ => Option (List UInt8)
  | append .. => Unit
  | rewrite .. => Bool

/-- The logs of a data directory. -/
abbrev Directory := Table → Option (List UInt8)

/-- The accesses of a handle that is alone. -/
def Directory.perform : (a : FileAction) → Directory → a.Reply × Directory
  | .read t, d => (d t, d)
  | .append t bytes, d => ((), Function.update d t (some ((d t).getD [] ++ bytes)))
  | .rewrite t bytes _, d => (true, Function.update d t (some bytes))

/-! ## Handles -/

/-- A handle: its tables, how many lines it skipped, which tables it loaded and
how many valid lines their logs have. -/
structure FileCache where
  inner : InMemoryCache
  skippedLines : Nat
  loadedTables : Table → Bool
  tableLineCounts : Table → Nat

/-- Open a store; the tables are loaded on first access. -/
def FileCache.open : FileCache := ⟨.new, 0, fun _ ↦ false, fun _ ↦ 0⟩

/-- An operation of a handle. -/
def FileM (α : Type) : Type :=
  FileCache → Program FileAction FileAction.Reply (CacheResult α × FileCache)

namespace FileM

instance : Monad FileM where
  pure a c := .done (.ok a, c)
  bind x f c := (x c).bind fun
    | (.ok a, c') => f a c'
    | (.error e, c') => .done (.error e, c')

def get : FileM FileCache := fun c ↦ .done (.ok c, c)

def modify (f : FileCache → FileCache) : FileM Unit := fun c ↦ .done (.ok (), f c)

def throw {α : Type} (e : CacheError) : FileM α := fun c ↦ .done (.error e, c)

def request (a : FileAction) : FileM a.Reply := fun c ↦ .ask a fun r ↦ .done (.ok r, c)

/-- Go on with the result of an operation, be it an error. -/
def attempt {α : Type} (x : FileM α) : FileM (CacheResult α) := fun c ↦
  (x c).bind fun (r, c') ↦ .done (.ok r, c')

/-- An operation of a handle that is alone in its directory. -/
def run {α : Type} (x : FileM α) (c : FileCache) (d : Directory) :
    (CacheResult α × FileCache) × Directory := (x c).run Directory.perform d

end FileM

variable (E : Crates)

/-! ## Loading -/

/-- What a load has so far: the tables it writes to, the lines it skipped and
the valid lines. -/
structure Loading (σ : Type) where
  target : σ
  skipped : Nat
  valid : Nat

/-- A backend as a load uses it: each table's write. -/
abbrev Target (σ : Type) := (t : Table) → t.Record → σ → CacheResult Unit × σ

/-- Take one line of a log. -/
def loadLine {σ : Type} (target : Target σ) (t : Table) (s : Loading σ) (line : Text) : Loading σ :=
  if (Unicode.trim line).isEmpty then s
  else
    match E.fromStr t line with
    | some ⟨v, r⟩ =>
        if v = lineVersion then
          match target t r s.target with
          | (.ok (), σ') => ⟨σ', s.skipped, s.valid + 1⟩
          | (.error _, σ') => ⟨σ', s.skipped + 1, s.valid⟩
        else { s with skipped := s.skipped + 1 }
    | none => { s with skipped := s.skipped + 1 }

/-- Take the complete lines of a log. -/
def loadLines {σ : Type} (target : Target σ) (t : Table) (s : Loading σ) (content : Text) :
    Loading σ :=
  (lines (completeLines content)).foldl (loadLine E target t) s

/-- Load the log of a table into a target; the valid lines. -/
def loadTable {σ : Type} (target : Target σ) (t : Table) (s : σ) : FileM (Nat × σ) := do
  match ← FileM.request (.read t) with
  | none => return (0, s)
  | some bytes =>
      match Utf8.decode bytes with
      | none => FileM.throw (.io "read table log" t.fileName)
      | some content =>
          let c ← FileM.get
          let loaded := loadLines E target t ⟨s, c.skippedLines, 0⟩ content
          FileM.modify fun c ↦ { c with skippedLines := loaded.skipped }
          return (loaded.valid, loaded.target)

/-- The in-memory tables as the target of a load. -/
def memoryTarget : Target InMemoryCache := fun t r c ↦
  match c.write E t r with
  | .ok c' => (.ok (), c')
  | .error e => (.error e, c)

def ensureTableLoaded (t : Table) : FileM Unit := do
  let c ← FileM.get
  if c.loadedTables t then return ()
  let (count, inner) ← loadTable E (memoryTarget E) t c.inner
  FileM.modify fun c ↦
    { c with inner, tableLineCounts := Function.update c.tableLineCounts t count,
             loadedTables := Function.update c.loadedTables t true }

/-- Load tables, up to the first one that cannot be read. -/
def ensureTablesLoaded : List Table → FileM Unit
  | [] => return ()
  | t :: ts => do
      ensureTableLoaded E t
      ensureTablesLoaded ts

def ensureAllLoaded : FileM Unit := ensureTablesLoaded E Table.all

/-- The lines that were skipped, after all tables were scanned. -/
def skippedLines : FileM Nat := do
  let _ ← FileM.attempt (ensureAllLoaded E)
  return (← FileM.get).skippedLines

/-! ## Writing -/

/-- The line of a record, with its newline. -/
def lineText (t : Table) (r : t.Record) : Text := E.toString t ⟨lineVersion, r⟩ ++ ['\n']

def appendLine (t : Table) (r : t.Record) : FileM Unit := do
  FileM.request (.append t (Utf8.encode (lineText E t r)))
  FileM.modify fun c ↦
    { c with tableLineCounts := Function.update c.tableLineCounts t (c.tableLineCounts t + 1) }

/-- Write the lines of records to a temporary file and rename it over the log. -/
def rewriteTableAtomic (t : Table) (records : List t.Record) (evicted : t.Key → Bool) :
    FileM Unit := do
  let renamed ← FileM.request (.rewrite t (Utf8.encode (records.flatMap (lineText E t))) evicted)
  if renamed then return () else FileM.throw (.io "rename compacted table file" t.fileName)

def setTableLineCount (t : Table) (count : Nat) : FileM Unit :=
  FileM.modify fun c ↦ { c with tableLineCounts := Function.update c.tableLineCounts t count }

/-- The trigger of a compaction: `count` lines for `canonical` records. -/
def compactsLazily (count canonical : Nat) : Bool :=
  lazyCompactMinSupersededLines ≤ count &&
    (lazyCompactMinSupersededLines ≤ count - canonical && canonical * 2 ≤ count)

def maybeLazyCompactUpsert (t : Table) : FileM Unit := do
  let c ← FileM.get
  let canonical := (c.inner t).values
  if compactsLazily (c.tableLineCounts t) canonical.length then
    rewriteTableAtomic E t canonical fun _ ↦ false
    setTableLineCount t canonical.length
  else return ()

/-- Load, store in memory, append, and compact an upsert table. -/
def write (t : Table) (r : t.Record) : FileM Unit := do
  ensureTableLoaded E t
  let c ← FileM.get
  match c.inner.write E t r with
  | .error e => FileM.throw e
  | .ok inner =>
      FileM.modify fun c ↦ { c with inner }
      appendLine E t r
      if t.isUpsert then maybeLazyCompactUpsert E t else return ()

def upsertProfile := write E .profiles

def insertCatalogSnapshot := write E .catalogSnapshots

def upsertDatasetManifest := write E .datasetManifests

def upsertQueryPlan := write E .queryPlans

def appendQueryReceipt := write E .queryReceipts

def appendPartitionMetadata := write E .partitionMetadata

def appendExport := write E .exports

def appendCostHistory := write E .costHistory

def appendReplayBundle := write E .replayBundles

def appendAuditEvent := write E .auditLog

/-- A lookup loads its table and asks the tables in memory. -/
def lookup (l : Lookup) : FileM Answer := do
  ensureTableLoaded E l.table
  let c ← FileM.get
  return l.answer c.inner

/-! ## Compaction and retention -/

structure CompactionReport where
  linesBefore : Nat
  linesAfter : Nat
  tablesRewritten : Nat
deriving DecidableEq, Repr

def compactSingleTable (t : Table) (report : CompactionReport) : FileM CompactionReport := do
  let c ← FileM.get
  let canonical := (c.inner t).values
  let before := c.tableLineCounts t
  let after := canonical.length
  let report := { report with
    linesBefore := report.linesBefore + before, linesAfter := report.linesAfter + after }
  if before ≤ after then return report
  rewriteTableAtomic E t canonical fun _ ↦ false
  setTableLineCount t after
  return { report with tablesRewritten := report.tablesRewritten + 1 }

def compactUpsertTables : FileM CompactionReport := do
  ensureTableLoaded E .profiles
  ensureTableLoaded E .datasetManifests
  ensureTableLoaded E .queryPlans
  let report ← compactSingleTable E .profiles ⟨0, 0, 0⟩
  let report ← compactSingleTable E .datasetManifests report
  compactSingleTable E .queryPlans report

/-- Rewrite a table that retention went over. -/
def rewriteRetained (t : Table) (evicted : t.Key → Bool) : FileM Unit := do
  let c ← FileM.get
  let records := (c.inner t).values
  rewriteTableAtomic E t records evicted
  setTableLineCount t records.length

/-- The receipts that retention drops from the tables in memory. -/
def droppedReceipts (c : InMemoryCache) (policy : RetentionPolicy) : List Text :=
  policy.maxReceiptsPerProfile.elim [] c.receiptsToDrop

/-- The snapshots that retention drops from the tables in memory. -/
def droppedSnapshots (c : InMemoryCache) (policy : RetentionPolicy) : List Text :=
  policy.maxSnapshotsPerScope.elim [] c.snapshotsToDrop

/-- The keys that retention evicts. -/
def evictedKeys (c : InMemoryCache) (policy : RetentionPolicy) : (t : Table) → t.Key → Bool
  | .queryReceipts, id => decide (id ∈ droppedReceipts c policy)
  | .partitionMetadata, k => decide ((ofLex k).1 ∈ droppedReceipts c policy)
  | .catalogSnapshots, id => decide (id ∈ droppedSnapshots c policy)
  | .profiles, _ | .datasetManifests, _ | .queryPlans, _ | .exports, _ | .costHistory, _
  | .replayBundles, _ | .auditLog, _ => false

def applyRetention (policy : RetentionPolicy) : FileM Nat := do
  if policy.maxReceiptsPerProfile.isSome then
    ensureTableLoaded E .queryReceipts
    ensureTableLoaded E .partitionMetadata
  if policy.maxSnapshotsPerScope.isSome then
    ensureTableLoaded E .catalogSnapshots
  let c ← FileM.get
  let (inner, evicted) := c.inner.applyRetentionInMemory policy
  FileM.modify fun c ↦ { c with inner }
  if 0 < evicted then
    if policy.maxReceiptsPerProfile.isSome then
      rewriteRetained E .queryReceipts (evictedKeys c.inner policy .queryReceipts)
      rewriteRetained E .partitionMetadata (evictedKeys c.inner policy .partitionMetadata)
    if policy.maxSnapshotsPerScope.isSome then
      rewriteRetained E .catalogSnapshots (evictedKeys c.inner policy .catalogSnapshots)
  return evicted

/-! ## Replay -/

/-- Replay tables into a target, up to the first one that cannot be read. -/
def replayTables {σ : Type} (target : Target σ) : List Table → σ → FileM (CacheResult Unit × σ)
  | [], s => return (.ok (), s)
  | t :: ts, s => do
      match ← FileM.attempt (loadTable E target t s) with
      | .ok (_, s) => replayTables target ts s
      | .error e => return (.error e, s)

def replayLogs {σ : Type} (target : Target σ) (s : σ) : FileM (CacheResult Unit × σ) :=
  replayTables E target Table.all s

/-- Replay every log into a target; how many lines were not replayed. -/
def replayInto {σ : Type} (target : Target σ) (s : σ) : FileM (CacheResult Nat × σ) := do
  let before := (← FileM.get).skippedLines
  let (replayed, s) ← replayLogs E target s
  let notReplayed := (← FileM.get).skippedLines - before
  FileM.modify fun c ↦ { c with skippedLines := before }
  return (replayed.map fun _ ↦ notReplayed, s)

end FrankenSnowflake.Cache
