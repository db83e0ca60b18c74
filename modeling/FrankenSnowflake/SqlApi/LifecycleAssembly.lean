import FrankenSnowflake.SqlApi.LifecycleStep

/-!
# Result assembly

What a client has fed and taken is kept in a ledger: the `200` body accepted
last, the partition bodies accepted since, and the rows `drain_rows` handed out.
The machine follows the ledger, so that a completed statement has the rows the
ledger tells, in order, none lost and none twice.  One thing breaks this: a
`200` accepted while rows of an earlier one have been drained.
-/

namespace FrankenSnowflake.SqlApi

open Foundation Jsonv2Scanner

/-! ## Row counts -/

theorem i64TryFrom_eq_some {n : Nat} {k : Int} :
    i64TryFrom n = some k ↔ n < 2 ^ 63 ∧ (n : Int) = k := by
  unfold i64TryFrom
  split
  next h => simp only [Option.some.injEq, h, true_and]
  next h => simp only [reduceCtorEq, h, false_and]

theorem validatePartitionRowCount_eq_ok {rs : ResultSet} {i n : Nat} {info : PartitionInfo}
    (h : validatePartitionRowCount rs i n = .ok ())
    (hinfo : rs.resultSetMetaData.partitionInfo[i]? = some info) : (n : Int) = info.rowCount := by
  unfold validatePartitionRowCount at h
  rw [hinfo] at h
  dsimp only at h
  split at h
  next => cases h
  split at h
  next => cases h
  next hcount => exact (i64TryFrom_eq_some.mp (not_not.mp hcount)).2

theorem validateTotalRowCount_eq_ok {n : Nat} {k : Int} (h : validateTotalRowCount n k = .ok ()) :
    n < 2 ^ 63 ∧ (n : Int) = k := by
  unfold validateTotalRowCount at h
  split at h
  next => cases h
  split at h
  next => cases h
  next hcount => exact i64TryFrom_eq_some.mp (not_not.mp hcount)

/-! ## The ledger -/

/-- What passed between the client and the machine. -/
structure Ledger where
  /-- The `200` body accepted last. -/
  accepted : List UInt8
  /-- The partitions accepted since, by number. -/
  fetched : List (Nat × List UInt8)
  /-- The rows handed out by `drain_rows`. -/
  handedOut : List Row

/-- A call that is answered without an error is entered. -/
def Ledger.record (L : Ledger) : Call × Reply → Ledger
  | (.onSubmit .completed body, .progress (.ok _))
  | (.onPoll .completed body, .progress (.ok _)) => { L with accepted := body, fetched := [] }
  | (.onPartition _ n body, .progress (.ok _)) => { L with fetched := L.fetched ++ [(n, body)] }
  | (.drainRows, .rows drained) => { L with handedOut := L.handedOut ++ drained }
  | _ => L

def ledger (trace : List (Call × Reply)) : Ledger := trace.foldl .record ⟨[], [], []⟩

theorem ledger_snoc (trace : List (Call × Reply)) (e : Call × Reply) :
    ledger (trace ++ [e]) = (ledger trace).record e := by
  simp [ledger]

namespace Ledger

variable {L : Ledger} {call : Call} {body : List UInt8}

theorem record_completed {p : Progress} (h : call.Answers .completed body) :
    L.record (call, .progress (.ok p)) = { L with accepted := body, fetched := [] } := by
  cases h with
  | onSubmit => rfl
  | onPoll => rfl

theorem record_other {cls : ResponseClass} {reply : Reply} (h : call.Answers cls body)
    (hcls : cls ≠ .completed) : L.record (call, reply) = L := by
  cases h with
  | onSubmit =>
      unfold record
      split
      all_goals simp_all
  | onPoll =>
      unfold record
      split
      all_goals simp_all

theorem record_error {e : LifecycleError} : L.record (call, .progress (.error e)) = L := by
  unfold record
  split
  all_goals simp_all

/-- The rows of the partitions a ledger tells of: the inline rows of the
accepted result set, then the rows decoded from each body, numbered from 1 on. -/
structure Partitions (serde : Serde) (L : Ledger) (rs : ResultSet) (parts : List (List Row)) :
    Prop where
  accepted : serde.resultSet L.accepted = .ok rs
  numbers : L.fetched.map Prod.fst = List.range' 1 L.fetched.length
  decoded : ∃ decoded, L.fetched.map (fun f ↦ decodeRows f.2) = decoded.map .ok ∧
    parts = rs.data :: decoded

end Ledger

/-- Each partition has as many rows as its `partitionInfo` entry says. -/
def CountsMatch (rs : ResultSet) (parts : List (List Row)) : Prop :=
  ∀ (i : Nat) (part : List Row) (info : PartitionInfo), parts[i]? = some part →
    rs.resultSetMetaData.partitionInfo[i]? = some info →
    (part.length : Int) = info.rowCount

/-- The rows handed out and `rows` are those of the ledger's partitions. -/
structure Assembled (serde : Serde) (L : Ledger) (rs : ResultSet) (rows : List Row) (n : Nat) :
    Prop where
  exists_parts : ∃ parts, L.Partitions serde rs parts ∧ parts.length = n ∧
    L.handedOut ++ rows = parts.flatten ∧ CountsMatch rs parts

theorem CountsMatch.singleton {rs : ResultSet} {rows : List Row}
    (h : validatePartitionRowCount rs 0 rows.length = .ok ()) : CountsMatch rs [rows] := by
  intro i part info hpart hinfo
  cases i with
  | zero =>
      obtain rfl : rows = part := by simpa using hpart
      exact validatePartitionRowCount_eq_ok h hinfo
  | succ i => simp at hpart

theorem CountsMatch.append {rs : ResultSet} {parts : List (List Row)} {rows : List Row}
    (hparts : CountsMatch rs parts)
    (h : validatePartitionRowCount rs parts.length rows.length = .ok ()) :
    CountsMatch rs (parts ++ [rows]) := by
  intro i part info hpart hinfo
  rcases Nat.lt_trichotomy i parts.length with hi | rfl | hi
  · rw [List.getElem?_append_left hi] at hpart
    exact hparts i part info hpart hinfo
  · obtain rfl : rows = part := by simpa using hpart
    exact validatePartitionRowCount_eq_ok h hinfo
  · rw [List.getElem?_eq_none (by simp; omega)] at hpart
    cases hpart

/-- A first `200`, with nothing handed out. -/
theorem Assembled.accept {serde : Serde} {L : Ledger} {body : List UInt8} {rs : ResultSet}
    (hrs : serde.resultSet body = .ok rs) (hout : L.handedOut = [])
    (hcount : validatePartitionRowCount rs 0 rs.data.length = .ok ()) :
    Assembled serde { L with accepted := body, fetched := [] } rs rs.data 1 where
  exists_parts :=
    ⟨[rs.data], ⟨hrs, rfl, [], rfl, rfl⟩, rfl, by simp [hout], .singleton hcount⟩

theorem TakesPartition.decodeRows {a : Assembling} {body raw : List UInt8} {rows : List Row}
    (h : TakesPartition a body raw rows) : decodeRows body = .ok rows := by
  refine (decodeRows_extracted h.extracted).mp ?_
  have hraw := h.decoded
  unfold parsePartitionRows at hraw
  cases hdecode : Jsonv2Scanner.decodeRows raw with
  | error e =>
      rw [hdecode] at hraw
      cases hraw
  | ok rows' =>
      rw [hdecode] at hraw
      simpa [Except.mapError] using hraw

/-- The next partition. -/
theorem Assembled.append {serde : Serde} {L : Ledger} {a : Assembling} {body raw : List UInt8}
    {rows : List Row} (h : Assembled serde L a.resultSet a.rows a.next)
    (htakes : TakesPartition a body raw rows) :
    Assembled serde { L with fetched := L.fetched ++ [(a.next, body)] } a.resultSet
      (a.rows ++ rows) (a.next + 1) := by
  obtain ⟨parts, ⟨haccepted, hnumbers, decoded, hdecoded, rfl⟩, hlen, hrows, hcounts⟩ :=
    h.exists_parts
  have hfetched : L.fetched.length = decoded.length := by
    simpa using congrArg List.length hdecoded
  have hnext : a.next = 1 + L.fetched.length := by
    rw [← hlen, hfetched, List.length_cons, Nat.add_comm]
  refine ⟨a.resultSet.data :: decoded ++ [rows], ⟨haccepted, ?_, decoded ++ [rows], ?_, rfl⟩, ?_,
    ?_, ?_⟩
  · simp [hnumbers, List.range'_concat, hnext]
  · simp [hdecoded, htakes.decodeRows]
  · rw [List.length_append, hlen, List.length_singleton]
  · rw [← List.append_assoc, hrows]
    simp
  · refine hcounts.append ?_
    rw [hlen]
    exact htakes.rowCount

/-! ## The machine follows the ledger -/

/-- A `200` that the machine accepts while it is assembling and some rows have
been drained. -/
def Reopens (serde : Serde) (p : Phase) (drained : Nat) (call : Call) : Prop :=
  (∃ a, p = .assembling a) ∧ drained ≠ 0 ∧
    ∃ body rs, call.Answers .completed body ∧ serde.resultSet body = .ok rs ∧
      (SinglePartition rs ∨ SeveralPartitions rs)

/-- The phase and the count of drained rows agree with the ledger. -/
structure Tracks (serde : Serde) (L : Ledger) (p : Phase) (drained : Nat) : Prop where
  drained : drained = min L.handedOut.length usizeMax
  pending : p = .pending → L.handedOut = []
  assembling : ∀ a, p = .assembling a → Assembled serde L a.resultSet a.rows a.next ∧
    a.total = partitionTotal a.resultSet ∧ 0 < a.next ∧ a.next < a.total

section Tracks

variable {serde : Serde} {L : Ledger} {p p' : Phase} {d d' : Nat} {call : Call} {reply : Reply}

theorem Tracks.done (h : Tracks serde L p d) {L' : Ledger} (hout : L'.handedOut = L.handedOut) :
    Tracks serde L' .done d where
  drained := by rw [hout]; exact h.drained
  pending := by simp
  assembling := by simp

/-- Nothing has been handed out when a `200` is accepted. -/
theorem Tracks.handedOut (h : Tracks serde L p d) (hp : p ≠ .done) {body : List UInt8}
    {rs : ResultSet} (hcall : call.Answers .completed body) (hrs : serde.resultSet body = .ok rs)
    (haccepted : SinglePartition rs ∨ SeveralPartitions rs) (hre : ¬ Reopens serde p d call) :
    L.handedOut = [] := by
  cases p with
  | pending => exact h.pending rfl
  | done => exact absurd rfl hp
  | assembling a =>
      have hzero : d = 0 := by
        by_contra hne
        exact hre ⟨⟨a, rfl⟩, hne, body, rs, hcall, hrs, haccepted⟩
      have hdrained := h.drained
      rw [hzero] at hdrained
      refine List.length_eq_zero_iff.mp ?_
      unfold usizeMax at hdrained
      omega

theorem partitionTotal_le (rs : ResultSet) : partitionTotal rs ≤ u32Max := Nat.min_le_right _ _

theorem Transition.tracks (h : Transition serde p d call reply p' d') (ht : Tracks serde L p d)
    (hre : ¬ Reopens serde p d call) : Tracks serde (L.record (call, reply)) p' d' := by
  cases h with
  | refused _ hp =>
      rw [Ledger.record_error]
      rcases hp with rfl | rfl
      · exact ht
      · exact ht.done rfl
  | pollAgain hp hcall hcls hstatus =>
      rw [Ledger.record_other hcall (by rcases hcls with rfl | rfl <;> simp)]
      exact ht
  | timedOut hp hcall hfailure =>
      rw [Ledger.record_other hcall (by simp)]
      exact ht.done rfl
  | failed hp hcall hfailure =>
      rw [Ledger.record_other hcall (by simp)]
      exact ht.done rfl
  | complete hp hcall hrs hsingle =>
      rw [Ledger.record_completed hcall]
      exact ht.done rfl
  | @assemble _ _ _ body rs hp hcall hrs hseveral =>
      have hout := ht.handedOut hp hcall hrs (Or.inr hseveral) hre
      rw [Ledger.record_completed hcall]
      refine ⟨ht.drained, by simp, ?_⟩
      rintro a ha
      obtain rfl := Phase.assembling.inj ha
      exact ⟨.accept hrs hout hseveral.rowCount, rfl, Nat.one_pos, hseveral.total⟩
  | lastPartition => exact ht.done rfl
  | @nextPartition a _ body raw rows htakes hnext =>
      obtain ⟨hassembled, htotal, hpos, hlt⟩ := ht.assembling a rfl
      have hle := partitionTotal_le a.resultSet
      have hsucc : saturatingAdd u32Max a.next 1 = a.next + 1 := by
        unfold saturatingAdd
        omega
      rw [hsucc] at hnext ⊢
      refine ⟨ht.drained, by simp, ?_⟩
      rintro a' ha'
      obtain rfl := Phase.assembling.inj ha'
      exact ⟨hassembled.append htakes, htotal, Nat.succ_pos _, hnext⟩
  | @drainRows a =>
      obtain ⟨⟨parts, hparts, hlen, hrows, hcounts⟩, htotal, hpos, hlt⟩ := ht.assembling a rfl
      refine ⟨?_, by simp, ?_⟩
      · have hdrained := ht.drained
        simp only [Ledger.record, List.length_append, saturatingAdd]
        omega
      · rintro a' ha'
        obtain rfl := Phase.assembling.inj ha'
        refine ⟨⟨parts, ⟨hparts.accepted, hparts.numbers, hparts.decoded⟩, hlen, ?_, hcounts⟩,
          htotal, hpos, hlt⟩
        rw [← hrows]
        simp [Ledger.record]
  | @drainRawPartitions a =>
      refine ⟨ht.drained, by simp, ?_⟩
      rintro a' ha'
      obtain rfl := Phase.assembling.inj ha'
      exact ht.assembling a rfl
  | drainNoRows => simpa [Ledger.record] using ht
  | drainNoRawPartitions => exact ht
  | completeEarly => exact ht.done rfl
  | notEarly => exact ht.done rfl

/-- A complete result: the rows of all partitions, as many as `numRows`. -/
structure Complete (serde : Serde) (L : Ledger) (done : CompletedStatement) : Prop where
  assembled : Assembled serde L done.resultSet done.rows done.totalPartitions
  fetched : done.fetchedPartitions = done.totalPartitions
  total : done.totalPartitions = partitionTotal done.resultSet
  numRows : ((L.handedOut ++ done.rows).length : Int) = done.resultSet.resultSetMetaData.numRows

/-- An early result: the rows of the partitions fetched so far. -/
structure CutShort (serde : Serde) (L : Ledger) (done : CompletedStatement) : Prop where
  assembled : Assembled serde L done.resultSet done.rows done.fetchedPartitions
  fetched : done.fetchedPartitions < done.totalPartitions
  total : done.totalPartitions = partitionTotal done.resultSet

theorem one_le_partitionTotal (rs : ResultSet) : 1 ≤ partitionTotal rs := by
  unfold partitionTotal u32Max
  omega

theorem Transition.complete_of_tracks {done : CompletedStatement}
    (h : Transition serde p d call (.progress (.ok (.complete done))) p' d')
    (ht : Tracks serde L p d) (hre : ¬ Reopens serde p d call)
    (hsingle : done.resultSet.isMultiStatement = false) :
    Complete serde (L.record (call, .progress (.ok (.complete done)))) done := by
  cases h with
  | @complete _ _ _ body rs hp hcall hrs hcase =>
      have hpassed : SinglePartition rs := hcase.resolve_left (by simpa using hsingle)
      have hout := ht.handedOut hp hcall hrs (Or.inl hpassed) hre
      have hone := one_le_partitionTotal rs
      have htotal := hpassed.total
      rw [Ledger.record_completed hcall]
      refine ⟨.accept hrs hout hpassed.rowCount, rfl, ?_, ?_⟩
      · exact Nat.le_antisymm hone htotal
      · rw [hout, List.nil_append]
        exact (validateTotalRowCount_eq_ok hpassed.numRows).2
  | @lastPartition a _ body raw rows htakes hlast hnumRows =>
      obtain ⟨hassembled, htotal, hpos, hlt⟩ := ht.assembling a rfl
      have hle := partitionTotal_le a.resultSet
      have hnext : a.next + 1 = a.total := by
        unfold saturatingAdd at hlast
        omega
      refine ⟨hnext ▸ hassembled.append htakes, rfl, htotal, ?_⟩
      obtain ⟨hsmall, hcount⟩ := validateTotalRowCount_eq_ok hnumRows
      have hdrained := ht.drained
      rw [← hcount]
      have hlength : saturatingAdd usizeMax d (a.rows ++ rows).length =
          (L.handedOut ++ (a.rows ++ rows)).length := by
        unfold saturatingAdd usizeMax at hsmall ⊢
        unfold usizeMax at hdrained
        simp only [List.length_append] at hsmall ⊢
        omega
      rw [hlength]
      rfl

theorem Transition.cutShort_of_tracks {done : CompletedStatement}
    (h : Transition serde p d call (.completed (.ok done)) p' d') (ht : Tracks serde L p d) :
    CutShort serde (L.record (call, .completed (.ok done))) done := by
  cases h with
  | @completeEarly a =>
      obtain ⟨hassembled, htotal, hpos, hlt⟩ := ht.assembling a rfl
      exact ⟨hassembled, hlt, htotal⟩

end Tracks

section Runs

variable {serde : Serde} {plan : PollPlan}

/-- A call that does not reopen the assembly. -/
abbrev Steady (serde : Serde) (m : StatementMachine) (call : Call) : Prop :=
  ¬ Reopens serde m.phase m.drainedRows call

theorem tracks_of_runs {trace : List (Call × Reply)} {m : StatementMachine}
    (h : Runs serde plan (Steady serde) trace m) :
    Tracks serde (ledger trace) m.phase m.drainedRows := by
  refine h.invariant (I := fun trace m ↦ Tracks serde (ledger trace) m.phase m.drainedRows) ?_ ?_
  · exact ⟨by simp [ledger, StatementMachine.new], by simp [ledger], by simp [StatementMachine.new]⟩
  · intro trace s call htracks hsteady
    rw [ledger_snoc]
    exact (step_transition serde s call).tracks htracks hsteady

end Runs

/-! ## A late `200` -/

/-- A first `200` with two partitions. -/
def firstBody : List UInt8 := Utf8.encode ("\x7b\"resultSetMetaData\":\x7b\"numRows\":2," ++
  "\"format\":\"jsonv2\",\"rowType\":[],\"partitionInfo\":[\x7b\"rowCount\":1\x7d," ++
  "\x7b\"rowCount\":1\x7d]\x7d,\"data\":[[\"a\"]],\"code\":\"090001\"," ++
  "\"statementHandle\":\"h\"\x7d").toList

/-- A late `200` with one. -/
def lateBody : List UInt8 := Utf8.encode ("\x7b\"resultSetMetaData\":\x7b\"numRows\":1," ++
  "\"format\":\"jsonv2\",\"rowType\":[]\x7d,\"data\":[[\"b\"]],\"code\":\"090001\"," ++
  "\"statementHandle\":\"h\"\x7d").toList

def firstResult : ResultSet := ⟨⟨2, [⟨1⟩, ⟨1⟩]⟩, [[some ['a']]], "090001", ⟨"h"⟩, none⟩

def lateResult : ResultSet := ⟨⟨1, []⟩, [[some ['b']]], "090001", ⟨"h"⟩, none⟩

/-- A parser that knows the two bodies. -/
def lateSerde : Serde where
  resultSet body :=
    if body = firstBody then .ok firstResult
    else if body = lateBody then .ok lateResult
    else .error "not a result set"
  queryStatus _ := .error "not a status"
  queryFailure _ := .error "not a failure"

theorem lateSerde_first : lateSerde.resultSet firstBody = .ok firstResult := by
  simp [lateSerde]

theorem lateSerde_late : lateSerde.resultSet lateBody = .ok lateResult := by
  have hne : lateBody ≠ firstBody := by decide +kernel
  simp [lateSerde, hne]

theorem lateResult_single : SinglePartition lateResult :=
  ⟨by decide, by decide, by decide, by decide, by decide⟩

/-- The statement that the one-partition `200` completes. -/
def lateStatement : CompletedStatement :=
  ⟨⟨"h"⟩, lateResult, lateResult.data, inlinePartitions lateBody, 1, 1⟩

end FrankenSnowflake.SqlApi
