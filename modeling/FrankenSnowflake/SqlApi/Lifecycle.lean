import FrankenSnowflake.Foundation.Mealy
import FrankenSnowflake.SqlApi.Response

/-!
# The statement lifecycle

Submit, poll and partition assembly as a pure Mealy machine: the caller feeds
each response, a status class and a body, and is told the next step.  A call
answers with a result and leaves the machine it changed behind, also when the
result is an error.
-/

namespace FrankenSnowflake.SqlApi

open Jsonv2Scanner

/-- `u32::MAX`. -/
def u32Max : Nat := 2 ^ 32 - 1

/-- `usize::MAX`. -/
def usizeMax : Nat := 2 ^ 64 - 1

/-- `saturating_add` below `max`. -/
def saturatingAdd (max a b : Nat) : Nat := min (a + b) max

/-- `i64::try_from(n).ok()`. -/
def i64TryFrom (n : Nat) : Option Int := if n < 2 ^ 63 then some n else none

/-- How a `202` handle is polled and how partitions are fetched. -/
structure PollPlan where
  maxPolls : Nat
  partitionConcurrency : Nat
  rowCap : Option Nat
  maxPolls_le : maxPolls ≤ u32Max
deriving DecidableEq, Repr

/-- The default plan. -/
def PollPlan.default : PollPlan := ⟨120, 4, none, by decide⟩

/-- A completed statement: the terminal result set and the rows of the fetched
partitions that were not drained. -/
structure CompletedStatement where
  statementHandle : StatementHandle
  resultSet : ResultSet
  rows : List Row
  rawPartitions : List (List UInt8)
  fetchedPartitions : Nat
  totalPartitions : Nat
deriving DecidableEq, Repr

/-- The next step after a response. -/
inductive Progress where
  | pollAgain (handle : StatementHandle)
  | fetchPartition (handle : StatementHandle) (partition : Nat)
  | complete (done : CompletedStatement)
  | timedOut (failure : QueryFailureStatus)
  | failed (failure : QueryFailureStatus)
deriving DecidableEq, Repr

/-- The `code` of a `200` that does not include the whole result. -/
def resultSetTooLarge : String := "391908"

inductive LifecycleErrorCode where
  | decodeFailed
  | unexpectedStatus
  | pollQuotaExhausted
  | partitionRowMismatch
  | resultTooLarge
deriving DecidableEq, Repr

structure LifecycleError where
  code : LifecycleErrorCode
  message : String
deriving DecidableEq, Repr

/-- The fields of the assembling phase. -/
structure Assembling where
  resultSet : ResultSet
  handle : StatementHandle
  total : Nat
  next : Nat
  rows : List Row
  rawPartitions : List (List UInt8)
deriving DecidableEq, Repr

inductive Phase where
  /-- Before submit, or polling a handle. -/
  | pending
  /-- Completed; fetching the partitions `next..total`. -/
  | assembling (a : Assembling)
  | done
deriving DecidableEq, Repr

structure StatementMachine where
  pollPlan : PollPlan
  pollsDone : Nat
  phase : Phase
  /-- Rows handed out by `drain_rows`, counted. -/
  drainedRows : Nat
deriving DecidableEq, Repr

/-! ## Checks -/

/-- Total partitions of a result set, as a `u32`. -/
def partitionTotal (rs : ResultSet) : Nat :=
  min (max rs.resultSetMetaData.partitionInfo.length 1) u32Max

def validatePartitionRowCount (rs : ResultSet) (partition actualRows : Nat) :
    Except LifecycleError Unit :=
  match rs.resultSetMetaData.partitionInfo[partition]? with
  | none => .ok ()
  | some info =>
      let expected := info.rowCount
      if expected < 0 then
        .error ⟨.partitionRowMismatch, s!"partition {partition} rowCount is negative"⟩
      else if i64TryFrom actualRows ≠ some expected then
        .error ⟨.partitionRowMismatch,
          s!"partition {partition} returned {actualRows} rows but rowCount is {expected}"⟩
      else .ok ()

def validateTotalRowCount (actualRows : Nat) (expected : Int) : Except LifecycleError Unit :=
  if expected < 0 then .error ⟨.partitionRowMismatch, "numRows is negative"⟩
  else if i64TryFrom actualRows ≠ some expected then
    .error ⟨.partitionRowMismatch, s!"assembled {actualRows} rows but numRows is {expected}"⟩
  else .ok ()

/-- `parse_partition_rows`. -/
def parsePartitionRows (body : List UInt8) : Except LifecycleError (List Row) :=
  (decodeRows body).mapError fun e ↦ ⟨.decodeFailed, e.display⟩

/-- The raw inline partition; a failed extraction leaves it empty. -/
def inlineRaw (body : List UInt8) : List UInt8 :=
  match extractData body with
  | .ok raw => raw
  | .error _ => []

namespace StatementMachine

/-- A machine awaiting the submit response. -/
def new (pollPlan : PollPlan) : StatementMachine := ⟨pollPlan, 0, .pending, 0⟩

/-! ## Draining -/

def drainRows (m : StatementMachine) : List Row × StatementMachine :=
  match m.phase with
  | .assembling a =>
      (a.rows, { m with
        phase := .assembling { a with rows := [], rawPartitions := [] }
        drainedRows := saturatingAdd usizeMax m.drainedRows a.rows.length })
  | .pending | .done => ([], m)

def drainRawPartitions (m : StatementMachine) : List (List UInt8) × StatementMachine :=
  match m.phase with
  | .assembling a => (a.rawPartitions, { m with phase := .assembling { a with rawPartitions := [] } })
  | .pending | .done => ([], m)

/-- While assembling: the terminal result set. -/
def resultSet (m : StatementMachine) : Option ResultSet :=
  match m.phase with
  | .assembling a => some a.resultSet
  | .pending | .done => none

/-- While assembling: the next partition to fetch and the total. -/
def assemblingWindow (m : StatementMachine) : Option (Nat × Nat) :=
  match m.phase with
  | .assembling a => some (a.next, a.total)
  | .pending | .done => none

/-- Rows assembled so far, drained ones included. -/
def rowsAssembled (m : StatementMachine) : Nat :=
  match m.phase with
  | .assembling a => saturatingAdd usizeMax m.drainedRows a.rows.length
  | .pending | .done => 0

/-- Finish with the partitions fetched so far. -/
def completeEarly (m : StatementMachine) :
    Except LifecycleError CompletedStatement × StatementMachine :=
  match m.phase with
  | .assembling a =>
      (.ok ⟨a.handle, a.resultSet, a.rows, a.rawPartitions, a.next, a.total⟩,
        { m with phase := .done })
  | .pending | .done =>
      (.error ⟨.unexpectedStatus, "early completion requested outside the assembling phase"⟩,
        { m with phase := .done })

/-! ## Responses -/

/-- A machine that is done takes no further submit or poll response. -/
def ensureNotTerminal (m : StatementMachine) : Except LifecycleError Unit :=
  if m.phase = .done then
    .error ⟨.unexpectedStatus, "statement machine already reached a terminal state"⟩
  else .ok ()

/-- Enter partition assembly, or finish at once for a single partition. -/
def enterTerminalResult (m : StatementMachine) (rs : ResultSet) (inlineRawPartition : List UInt8) :
    Except LifecycleError Progress × StatementMachine :=
  if rs.code = resultSetTooLarge then
    (.error ⟨.resultTooLarge, "Snowflake returned code 391908: the result set is too large and " ++
      "the response does not include all of it; narrow the query (filters or LIMIT) or export " ++
      "it server-side with COPY INTO"⟩, m)
  else
    let handle := rs.statementHandle
    let rawPartitions := if inlineRawPartition.isEmpty then [] else [inlineRawPartition]
    if rs.isMultiStatement then
      (.ok (.complete ⟨handle, rs, rs.data, rawPartitions, 1, 1⟩), { m with phase := .done })
    else
      let total := partitionTotal rs
      let rows := rs.data
      match validatePartitionRowCount rs 0 rows.length with
      | .error e => (.error e, m)
      | .ok () =>
      if total ≤ 1 then
        match validateTotalRowCount rows.length rs.resultSetMetaData.numRows with
        | .error e => (.error e, { m with phase := .done })
        | .ok () =>
            (.ok (.complete ⟨handle, rs, rows, rawPartitions, 1, 1⟩), { m with phase := .done })
      else
        (.ok (.fetchPartition handle 1),
          { m with phase := .assembling ⟨rs, handle, total, 1, rows, rawPartitions⟩ })

section Responses

variable (serde : Serde)

def parseWith {α : Type} (parse : List UInt8 → Except String α) (body : List UInt8) :
    Except LifecycleError α :=
  (parse body).mapError fun text ↦ ⟨.decodeFailed, text⟩

/-- A `200` on submit or poll. -/
def onCompleted (m : StatementMachine) (body : List UInt8) :
    Except LifecycleError Progress × StatementMachine :=
  match parseWith serde.resultSet body with
  | .error e => (.error e, m)
  | .ok rs => m.enterTerminalResult rs (inlineRaw body)

/-- A `408` or `422`, with the progress it ends in. -/
def onFailure (m : StatementMachine) (ended : QueryFailureStatus → Progress) (body : List UInt8) :
    Except LifecycleError Progress × StatementMachine :=
  match parseWith serde.queryFailure body with
  | .error e => (.error e, m)
  | .ok failure => (.ok (ended failure), { m with phase := .done })

/-- A status to poll again on. -/
def onRunning (m : StatementMachine) (body : List UInt8) :
    Except LifecycleError Progress × StatementMachine :=
  match parseWith serde.queryStatus body with
  | .error e => (.error e, m)
  | .ok status => (.ok (.pollAgain status.statementHandle), m)

def onSubmit (m : StatementMachine) (cls : ResponseClass) (body : List UInt8) :
    Except LifecycleError Progress × StatementMachine :=
  match m.ensureNotTerminal with
  | .error e => (.error e, m)
  | .ok () =>
  match cls with
  | .completed => m.onCompleted serde body
  | .running => m.onRunning serde body
  | .statementTimeout => m.onFailure serde .timedOut body
  | .statementFailed => m.onFailure serde .failed body
  | .rateLimited | .other _ =>
      (.error ⟨.unexpectedStatus, "submit returned a non-terminal, non-running status"⟩, m)

def onPoll (m : StatementMachine) (cls : ResponseClass) (body : List UInt8) :
    Except LifecycleError Progress × StatementMachine :=
  match m.ensureNotTerminal with
  | .error e => (.error e, m)
  | .ok () =>
  let m := { m with pollsDone := saturatingAdd u32Max m.pollsDone 1 }
  match cls with
  | .completed => m.onCompleted serde body
  | .statementTimeout => m.onFailure serde .timedOut body
  | .statementFailed => m.onFailure serde .failed body
  | .running | .rateLimited =>
      if m.pollPlan.maxPolls < m.pollsDone then
        (.error ⟨.pollQuotaExhausted,
          s!"statement still running after {m.pollPlan.maxPolls} polls"⟩, m)
      else m.onRunning serde body
  | .other _ => (.error ⟨.unexpectedStatus, "poll returned an unexpected status"⟩, m)

/-- The rows of partition `a.next` are in: complete, or ask for the next. -/
def appendPartition (m : StatementMachine) (a : Assembling) (rawSlice : List UInt8)
    (partitionRows : List Row) : Except LifecycleError Progress × StatementMachine :=
  let rawPartitions := a.rawPartitions ++ [rawSlice]
  let rows := a.rows ++ partitionRows
  let upcoming := saturatingAdd u32Max a.next 1
  if a.total ≤ upcoming then
    match validateTotalRowCount (saturatingAdd usizeMax m.drainedRows rows.length)
        a.resultSet.resultSetMetaData.numRows with
    | .error e => (.error e, { m with phase := .done })
    | .ok () =>
        (.ok (.complete ⟨a.handle, a.resultSet, rows, rawPartitions, a.total, a.total⟩),
          { m with phase := .done })
  else
    (.ok (.fetchPartition a.handle upcoming),
      { m with phase := .assembling { a with next := upcoming, rows, rawPartitions } })

def onPartition (m : StatementMachine) (cls : ResponseClass) (partition : Nat)
    (body : List UInt8) : Except LifecycleError Progress × StatementMachine :=
  if cls ≠ .completed then
    (.error ⟨.unexpectedStatus, s!"partition {partition} returned a non-200 status"⟩,
      { m with phase := .done })
  else
  match m.phase with
  | .pending | .done =>
      (.error ⟨.unexpectedStatus, "partition response arrived outside the assembling phase"⟩,
        { m with phase := .done })
  | .assembling a =>
  if partition ≠ a.next then
    -- the phase is put back
    (.error ⟨.unexpectedStatus, s!"expected partition {a.next}, received {partition}"⟩, m)
  else
  match extractData body with
  | .error e => (.error ⟨.decodeFailed, e.display⟩, { m with phase := .done })
  | .ok rawSlice =>
  match parsePartitionRows rawSlice with
  | .error e => (.error e, { m with phase := .done })
  | .ok partitionRows =>
  match validatePartitionRowCount a.resultSet partition partitionRows.length with
  | .error e => (.error e, { m with phase := .done })
  | .ok () => m.appendPartition a rawSlice partitionRows

end Responses

end StatementMachine

/-! ## Calls -/

/-- The calls a client makes. -/
inductive Call where
  | onSubmit (cls : ResponseClass) (body : List UInt8)
  | onPoll (cls : ResponseClass) (body : List UInt8)
  | onPartition (cls : ResponseClass) (partition : Nat) (body : List UInt8)
  | drainRows
  | drainRawPartitions
  | completeEarly
deriving DecidableEq, Repr

/-- The answer to a call. -/
inductive Reply where
  | progress (result : Except LifecycleError Progress)
  | rows (rows : List Row)
  | rawPartitions (raw : List (List UInt8))
  | completed (result : Except LifecycleError CompletedStatement)

/-- One call. -/
def step (serde : Serde) (m : StatementMachine) : Call → Reply × StatementMachine
  | .onSubmit cls body => (m.onSubmit serde cls body).map .progress id
  | .onPoll cls body => (m.onPoll serde cls body).map .progress id
  | .onPartition cls partition body => (m.onPartition cls partition body).map .progress id
  | .drainRows => m.drainRows.map .rows id
  | .drainRawPartitions => m.drainRawPartitions.map .rawPartitions id
  | .completeEarly => m.completeEarly.map .completed id

/-- The runs of a fresh machine whose steps `allowed` allows. -/
abbrev Runs (serde : Serde) (plan : PollPlan) (allowed : StatementMachine → Call → Prop) :
    List (Call × Reply) → StatementMachine → Prop :=
  Foundation.Mealy.Runs (step serde) allowed (.new plan)

end FrankenSnowflake.SqlApi
