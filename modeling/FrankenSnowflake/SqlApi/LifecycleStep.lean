import FrankenSnowflake.SqlApi.Lifecycle

/-!
# What a call can do

`Transition` lists the ways a call can go: its reply, and what becomes of the
phase and of the drained rows.  Every call of the machine is one of them, and
the properties of runs are read off this list.
-/

namespace FrankenSnowflake.SqlApi

open Jsonv2Scanner

/-- A response of a class to a submit or a poll. -/
inductive Call.Answers (cls : ResponseClass) : Call → List UInt8 → Prop where
  | onSubmit (body : List UInt8) : Answers cls (.onSubmit cls body) body
  | onPoll (body : List UInt8) : Answers cls (.onPoll cls body) body

/-- A call that feeds a response. -/
inductive Call.Responds : Call → Prop where
  | onSubmit (cls : ResponseClass) (body : List UInt8) : Responds (.onSubmit cls body)
  | onPoll (cls : ResponseClass) (body : List UInt8) : Responds (.onPoll cls body)
  | onPartition (cls : ResponseClass) (partition : Nat) (body : List UInt8) :
      Responds (.onPartition cls partition body)

theorem Call.Answers.responds {cls : ResponseClass} {call : Call} {body : List UInt8}
    (h : call.Answers cls body) : call.Responds := by
  cases h with
  | onSubmit => exact .onSubmit _ _
  | onPoll => exact .onPoll _ _

/-- The raw partitions a machine starts from. -/
def inlinePartitions (body : List UInt8) : List (List UInt8) :=
  if (inlineRaw body).isEmpty then [] else [inlineRaw body]

/-- A result set that fits in one partition and passes both row counts. -/
structure SinglePartition (rs : ResultSet) : Prop where
  complete : rs.code ≠ resultSetTooLarge
  single : rs.isMultiStatement = false
  total : partitionTotal rs ≤ 1
  rowCount : validatePartitionRowCount rs 0 rs.data.length = .ok ()
  numRows : validateTotalRowCount rs.data.length rs.resultSetMetaData.numRows = .ok ()

/-- A result set of several partitions whose inline partition passes. -/
structure SeveralPartitions (rs : ResultSet) : Prop where
  complete : rs.code ≠ resultSetTooLarge
  single : rs.isMultiStatement = false
  total : 1 < partitionTotal rs
  rowCount : validatePartitionRowCount rs 0 rs.data.length = .ok ()

/-- The partition that the machine takes next, its raw slice and its rows. -/
structure TakesPartition (a : Assembling) (body raw : List UInt8) (rows : List Row) : Prop where
  extracted : extractData body = .ok raw
  decoded : parsePartitionRows raw = .ok rows
  rowCount : validatePartitionRowCount a.resultSet a.next rows.length = .ok ()

/-- The ways a call can go from a phase and a count of drained rows. -/
inductive Transition (serde : Serde) : Phase → Nat → Call → Reply → Phase → Nat → Prop where
  /-- An error that leaves the phase or ends the machine. -/
  | refused {p p' : Phase} {d : Nat} {call : Call} {e : LifecycleError} (hcall : call.Responds)
      (hp : p' = p ∨ p' = .done) : Transition serde p d call (.progress (.error e)) p' d
  /-- A `202`, or a `429` while polling. -/
  | pollAgain {p : Phase} {d : Nat} {cls : ResponseClass} {call : Call} {body : List UInt8}
      {status : QueryStatus} (hp : p ≠ .done) (hcall : call.Answers cls body)
      (hcls : cls = .running ∨ cls = .rateLimited) (hstatus : serde.queryStatus body = .ok status) :
      Transition serde p d call (.progress (.ok (.pollAgain status.statementHandle))) p d
  | timedOut {p : Phase} {d : Nat} {call : Call} {body : List UInt8}
      {failure : QueryFailureStatus} (hp : p ≠ .done) (hcall : call.Answers .statementTimeout body)
      (hfailure : serde.queryFailure body = .ok failure) :
      Transition serde p d call (.progress (.ok (.timedOut failure))) .done d
  | failed {p : Phase} {d : Nat} {call : Call} {body : List UInt8} {failure : QueryFailureStatus}
      (hp : p ≠ .done) (hcall : call.Answers .statementFailed body)
      (hfailure : serde.queryFailure body = .ok failure) :
      Transition serde p d call (.progress (.ok (.failed failure))) .done d
  /-- A `200` that completes the statement. -/
  | complete {p : Phase} {d : Nat} {call : Call} {body : List UInt8} {rs : ResultSet}
      (hp : p ≠ .done) (hcall : call.Answers .completed body) (hrs : serde.resultSet body = .ok rs)
      (hsingle : rs.isMultiStatement ∨ SinglePartition rs) :
      Transition serde p d call (.progress (.ok (.complete
        ⟨rs.statementHandle, rs, rs.data, inlinePartitions body, 1, 1⟩))) .done d
  /-- A `200` that starts assembly. -/
  | assemble {p : Phase} {d : Nat} {call : Call} {body : List UInt8} {rs : ResultSet}
      (hp : p ≠ .done) (hcall : call.Answers .completed body) (hrs : serde.resultSet body = .ok rs)
      (hseveral : SeveralPartitions rs) :
      Transition serde p d call (.progress (.ok (.fetchPartition rs.statementHandle 1)))
        (.assembling ⟨rs, rs.statementHandle, partitionTotal rs, 1, rs.data,
          inlinePartitions body⟩) d
  /-- The last partition. -/
  | lastPartition {a : Assembling} {d : Nat} {body raw : List UInt8} {rows : List Row}
      (htakes : TakesPartition a body raw rows) (hlast : a.total ≤ saturatingAdd u32Max a.next 1)
      (hnumRows : validateTotalRowCount (saturatingAdd usizeMax d (a.rows ++ rows).length)
        a.resultSet.resultSetMetaData.numRows = .ok ()) :
      Transition serde (.assembling a) d (.onPartition .completed a.next body)
        (.progress (.ok (.complete ⟨a.handle, a.resultSet, a.rows ++ rows,
          a.rawPartitions ++ [raw], a.total, a.total⟩))) .done d
  /-- A partition with more to come. -/
  | nextPartition {a : Assembling} {d : Nat} {body raw : List UInt8} {rows : List Row}
      (htakes : TakesPartition a body raw rows) (hnext : saturatingAdd u32Max a.next 1 < a.total) :
      Transition serde (.assembling a) d (.onPartition .completed a.next body)
        (.progress (.ok (.fetchPartition a.handle (saturatingAdd u32Max a.next 1))))
        (.assembling { a with
          next := saturatingAdd u32Max a.next 1
          rows := a.rows ++ rows
          rawPartitions := a.rawPartitions ++ [raw] }) d
  | drainRows {a : Assembling} {d : Nat} :
      Transition serde (.assembling a) d .drainRows (.rows a.rows)
        (.assembling { a with rows := [], rawPartitions := [] })
        (saturatingAdd usizeMax d a.rows.length)
  | drainRawPartitions {a : Assembling} {d : Nat} :
      Transition serde (.assembling a) d .drainRawPartitions (.rawPartitions a.rawPartitions)
        (.assembling { a with rawPartitions := [] }) d
  | drainNoRows {p : Phase} {d : Nat} (hp : ∀ a, p ≠ .assembling a) :
      Transition serde p d .drainRows (.rows []) p d
  | drainNoRawPartitions {p : Phase} {d : Nat} (hp : ∀ a, p ≠ .assembling a) :
      Transition serde p d .drainRawPartitions (.rawPartitions []) p d
  | completeEarly {a : Assembling} {d : Nat} :
      Transition serde (.assembling a) d .completeEarly
        (.completed (.ok ⟨a.handle, a.resultSet, a.rows, a.rawPartitions, a.next, a.total⟩))
        .done d
  | notEarly {p : Phase} {d : Nat} {e : LifecycleError} (hp : ∀ a, p ≠ .assembling a) :
      Transition serde p d .completeEarly (.completed (.error e)) .done d

namespace StatementMachine

variable {serde : Serde} {m : StatementMachine}

/-- The transition a response makes. -/
def Makes (serde : Serde) (m : StatementMachine) (call : Call)
    (r : Except LifecycleError Progress × StatementMachine) : Prop :=
  Transition serde m.phase m.drainedRows call (.progress r.1) r.2.phase r.2.drainedRows

theorem enterTerminalResult_makes {call : Call} {body : List UInt8} {rs : ResultSet}
    (hp : m.phase ≠ .done) (hcall : call.Answers .completed body) (hrs : serde.resultSet body = .ok rs) :
    Makes serde m call (m.enterTerminalResult rs (inlineRaw body)) := by
  unfold enterTerminalResult
  split
  next => exact .refused hcall.responds (Or.inl rfl)
  next hcode =>
  dsimp only
  split
  next hmulti => exact .complete hp hcall hrs (Or.inl hmulti)
  next hmulti =>
  have hsingle : rs.isMultiStatement = false := by simpa using hmulti
  split
  next => exact .refused hcall.responds (Or.inl rfl)
  next hcount =>
  split
  next htotal =>
    split
    next => exact .refused hcall.responds (Or.inr rfl)
    next hnum => exact .complete hp hcall hrs (Or.inr ⟨hcode, hsingle, htotal, hcount, hnum⟩)
  next htotal => exact .assemble hp hcall hrs ⟨hcode, hsingle, by omega, hcount⟩

theorem parseWith_eq_ok {α : Type} {parse : List UInt8 → Except String α} {body : List UInt8}
    {a : α} : parseWith parse body = .ok a ↔ parse body = .ok a := by
  unfold parseWith
  cases parse body with
  | error e => simp [Except.mapError]
  | ok b => simp [Except.mapError]

theorem onCompleted_makes {call : Call} {body : List UInt8} (hp : m.phase ≠ .done)
    (hcall : call.Answers .completed body) : Makes serde m call (m.onCompleted serde body) := by
  unfold onCompleted
  split
  next => exact .refused hcall.responds (Or.inl rfl)
  next rs hrs => exact enterTerminalResult_makes hp hcall (parseWith_eq_ok.mp hrs)

theorem onTimeout_makes {call : Call} {body : List UInt8} (hp : m.phase ≠ .done)
    (hcall : call.Answers .statementTimeout body) :
    Makes serde m call (m.onFailure serde .timedOut body) := by
  unfold onFailure
  split
  next => exact .refused hcall.responds (Or.inl rfl)
  next failure h => exact .timedOut hp hcall (parseWith_eq_ok.mp h)

theorem onFailed_makes {call : Call} {body : List UInt8} (hp : m.phase ≠ .done)
    (hcall : call.Answers .statementFailed body) :
    Makes serde m call (m.onFailure serde .failed body) := by
  unfold onFailure
  split
  next => exact .refused hcall.responds (Or.inl rfl)
  next failure h => exact .failed hp hcall (parseWith_eq_ok.mp h)

theorem onRunning_makes {call : Call} {cls : ResponseClass} {body : List UInt8}
    (hp : m.phase ≠ .done) (hcall : call.Answers cls body)
    (hcls : cls = .running ∨ cls = .rateLimited) :
    Makes serde m call (m.onRunning serde body) := by
  unfold onRunning
  split
  next => exact .refused hcall.responds (Or.inl rfl)
  next status h => exact .pollAgain hp hcall hcls (parseWith_eq_ok.mp h)

theorem ensureNotTerminal_eq_ok : m.ensureNotTerminal = .ok () ↔ m.phase ≠ .done := by
  unfold ensureNotTerminal
  split
  next h => simp [h]
  next h => simp [h]

theorem onSubmit_makes (cls : ResponseClass) (body : List UInt8) :
    Makes serde m (.onSubmit cls body) (m.onSubmit serde cls body) := by
  unfold onSubmit
  split
  next => exact .refused (.onSubmit _ _) (Or.inl rfl)
  next hopen =>
    have hp := ensureNotTerminal_eq_ok.mp hopen
    cases cls with
    | completed => exact onCompleted_makes hp (.onSubmit _)
    | running => exact onRunning_makes hp (.onSubmit _) (Or.inl rfl)
    | statementTimeout => exact onTimeout_makes hp (.onSubmit _)
    | statementFailed => exact onFailed_makes hp (.onSubmit _)
    | rateLimited => exact .refused (.onSubmit _ _) (Or.inl rfl)
    | other => exact .refused (.onSubmit _ _) (Or.inl rfl)

theorem onPoll_makes (cls : ResponseClass) (body : List UInt8) :
    Makes serde m (.onPoll cls body) (m.onPoll serde cls body) := by
  unfold onPoll
  split
  next => exact .refused (.onPoll _ _) (Or.inl rfl)
  next hopen =>
    have hp := ensureNotTerminal_eq_ok.mp hopen
    -- the counted poll leaves the phase and the drained rows as they are
    generalize hm : ({ m with pollsDone := saturatingAdd u32Max m.pollsDone 1 } :
      StatementMachine) = m'
    have hphase : m'.phase = m.phase := by rw [← hm]
    have hdrained : m'.drainedRows = m.drainedRows := by rw [← hm]
    unfold Makes
    rw [← hphase, ← hdrained]
    rw [← hphase] at hp
    cases cls with
    | completed => exact onCompleted_makes hp (.onPoll _)
    | running =>
        dsimp only
        split
        next => exact .refused (.onPoll _ _) (Or.inl rfl)
        next => exact onRunning_makes hp (.onPoll _) (Or.inl rfl)
    | statementTimeout => exact onTimeout_makes hp (.onPoll _)
    | statementFailed => exact onFailed_makes hp (.onPoll _)
    | rateLimited =>
        dsimp only
        split
        next => exact .refused (.onPoll _ _) (Or.inl rfl)
        next => exact onRunning_makes hp (.onPoll _) (Or.inr rfl)
    | other => exact .refused (.onPoll _ _) (Or.inl rfl)

theorem onPartition_makes (cls : ResponseClass) (partition : Nat) (body : List UInt8) :
    Makes serde m (.onPartition cls partition body) (m.onPartition cls partition body) := by
  unfold onPartition
  split
  next => exact .refused (.onPartition _ _ _) (Or.inr rfl)
  next hcls =>
  obtain rfl : cls = .completed := by simpa using hcls
  split
  next => exact .refused (.onPartition _ _ _) (Or.inr rfl)
  next => exact .refused (.onPartition _ _ _) (Or.inr rfl)
  next a ha =>
  split
  next => exact .refused (.onPartition _ _ _) (Or.inl rfl)
  next hpartition =>
  obtain rfl : partition = a.next := by simpa using hpartition
  split
  next => exact .refused (.onPartition _ _ _) (Or.inr rfl)
  next raw hraw =>
  split
  next => exact .refused (.onPartition _ _ _) (Or.inr rfl)
  next rows hrows =>
  split
  next => exact .refused (.onPartition _ _ _) (Or.inr rfl)
  next hcount =>
  unfold appendPartition Makes
  rw [ha]
  dsimp only
  split
  next hlast =>
    split
    next => exact .refused (.onPartition _ _ _) (Or.inr rfl)
    next hnum => exact .lastPartition ⟨hraw, hrows, hcount⟩ hlast hnum
  next hnext => exact .nextPartition ⟨hraw, hrows, hcount⟩ (by omega)

/-! ## Accepted results -/

theorem onSubmit_completed {body : List UInt8} {rs : ResultSet} (hp : m.phase ≠ .done)
    (hrs : serde.resultSet body = .ok rs) :
    m.onSubmit serde .completed body = m.enterTerminalResult rs (inlineRaw body) := by
  simp only [onSubmit, ensureNotTerminal_eq_ok.mpr hp, onCompleted, parseWith_eq_ok.mpr hrs]

theorem onPoll_completed {body : List UInt8} {rs : ResultSet} (hp : m.phase ≠ .done)
    (hrs : serde.resultSet body = .ok rs) :
    m.onPoll serde .completed body = enterTerminalResult
      { m with pollsDone := saturatingAdd u32Max m.pollsDone 1 } rs (inlineRaw body) := by
  simp only [onPoll, ensureNotTerminal_eq_ok.mpr hp, onCompleted, parseWith_eq_ok.mpr hrs]

theorem enterTerminalResult_several {body : List UInt8} {rs : ResultSet}
    (h : SeveralPartitions rs) :
    m.enterTerminalResult rs (inlineRaw body) = (.ok (.fetchPartition rs.statementHandle 1),
      { m with phase := .assembling ⟨rs, rs.statementHandle, partitionTotal rs, 1, rs.data,
        inlinePartitions body⟩ }) := by
  have htotal : ¬ partitionTotal rs ≤ 1 := Nat.not_le.mpr h.total
  simp [enterTerminalResult, h.complete, h.single, h.rowCount, htotal, inlinePartitions]

theorem enterTerminalResult_single {body : List UInt8} {rs : ResultSet} (h : SinglePartition rs) :
    m.enterTerminalResult rs (inlineRaw body) = (.ok (.complete
      ⟨rs.statementHandle, rs, rs.data, inlinePartitions body, 1, 1⟩),
      { m with phase := .done }) := by
  simp [enterTerminalResult, h.complete, h.single, h.rowCount, h.total, h.numRows,
    inlinePartitions]

end StatementMachine

open StatementMachine in
/-- Every call makes a transition. -/
theorem step_transition (serde : Serde) (m : StatementMachine) (call : Call) :
    Transition serde m.phase m.drainedRows call (step serde m call).1 (step serde m call).2.phase
      (step serde m call).2.drainedRows := by
  cases call with
  | onSubmit cls body => exact onSubmit_makes cls body
  | onPoll cls body => exact onPoll_makes cls body
  | onPartition cls partition body => exact onPartition_makes cls partition body
  | drainRows =>
      simp only [step, StatementMachine.drainRows]
      split
      next a ha =>
        rw [ha]
        exact .drainRows
      next ha => exact .drainNoRows (by simp [ha])
      next ha => exact .drainNoRows (by simp [ha])
  | drainRawPartitions =>
      simp only [step, StatementMachine.drainRawPartitions]
      split
      next a ha =>
        rw [ha]
        exact .drainRawPartitions
      next ha => exact .drainNoRawPartitions (by simp [ha])
      next ha => exact .drainNoRawPartitions (by simp [ha])
  | completeEarly =>
      simp only [step, StatementMachine.completeEarly]
      split
      next a ha =>
        rw [ha]
        exact .completeEarly
      next ha => exact .notEarly (by simp [ha])
      next ha => exact .notEarly (by simp [ha])

end FrankenSnowflake.SqlApi
