import FrankenSnowflake.SqlApi.LifecycleStep

/-!
# A finished statement stays finished

After a terminal reply every response is refused, nothing is left to drain and
no poll is counted.  The poll quota bounds the polls of a run unless it is
`u32::MAX`: the counter saturates there and never exceeds the quota.
-/

namespace FrankenSnowflake.SqlApi

open Foundation

/-- A reply that ends the statement. -/
def Reply.Terminal : Reply → Prop
  | .progress (.ok (.complete _)) | .progress (.ok (.timedOut _)) | .progress (.ok (.failed _))
  | .completed (.ok _) => True
  | _ => False

/-- The reply of a machine that is closed. -/
def Reply.Closed : Reply → Prop
  | .progress r => ∃ e, r = .error e
  | .completed r => ∃ e, r = .error e
  | .rows drained => drained = []
  | .rawPartitions drained => drained = []

/-- A poll that is answered with another poll. -/
def polledAgain : Call × Reply → Bool
  | (.onPoll _ _, .progress (.ok (.pollAgain _))) => true
  | _ => false

/-- Every call is allowed. -/
abbrev anyCall : StatementMachine → Call → Prop := fun _ _ ↦ True

/-- Terminal means terminal, and the quota bounds the polls. -/
structure TerminalIsTerminal (serde : Serde) (plan : PollPlan) : Prop where
  closed : ∀ {trace m call trace' m'}, Runs serde plan anyCall trace m →
    (step serde m call).1.Terminal →
    Mealy.Runs (step serde) anyCall (step serde m call).2 trace' m' →
    (∀ e ∈ trace', e.2.Closed) ∧ m'.pollsDone = (step serde m call).2.pollsDone
  polls : ∀ {trace m}, Runs serde plan anyCall trace m → trace.countP polledAgain ≤ plan.maxPolls

/-! ## The counter -/

namespace StatementMachine

variable {serde : Serde} (m : StatementMachine)

/-- The plan and the poll counter, which most of a call leaves alone. -/
def quota (m : StatementMachine) : PollPlan × Nat := (m.pollPlan, m.pollsDone)

theorem enterTerminalResult_quota (rs : ResultSet) (raw : List UInt8) :
    (m.enterTerminalResult rs raw).2.quota = m.quota := by
  unfold enterTerminalResult
  split
  next => rfl
  dsimp only
  split
  next => rfl
  split
  next => rfl
  split
  next =>
    split
    next => rfl
    next => rfl
  next => rfl

theorem onCompleted_quota (body : List UInt8) : (m.onCompleted serde body).2.quota = m.quota := by
  unfold onCompleted
  split
  next => rfl
  next => exact m.enterTerminalResult_quota _ _

theorem onFailure_quota (ended : QueryFailureStatus → Progress) (body : List UInt8) :
    (m.onFailure serde ended body).2.quota = m.quota := by
  unfold onFailure
  split
  next => rfl
  next => rfl

theorem onRunning_quota (body : List UInt8) : (m.onRunning serde body).2.quota = m.quota := by
  unfold onRunning
  split
  next => rfl
  next => rfl

theorem onSubmit_quota (cls : ResponseClass) (body : List UInt8) :
    (m.onSubmit serde cls body).2.quota = m.quota := by
  unfold onSubmit
  split
  next => rfl
  next =>
    cases cls with
    | completed => exact m.onCompleted_quota body
    | running => exact m.onRunning_quota body
    | statementTimeout => exact m.onFailure_quota _ body
    | statementFailed => exact m.onFailure_quota _ body
    | rateLimited => rfl
    | other => rfl

theorem onPartition_quota (cls : ResponseClass) (partition : Nat) (body : List UInt8) :
    (m.onPartition cls partition body).2.quota = m.quota := by
  unfold onPartition
  split
  next => rfl
  split
  next => rfl
  next => rfl
  split
  next => rfl
  split
  next => rfl
  split
  next => rfl
  split
  next => rfl
  unfold appendPartition
  dsimp only
  split
  next =>
    split
    next => rfl
    next => rfl
  next => rfl

/-- A poll of a machine that is not done is counted. -/
theorem onPoll_quota (cls : ResponseClass) (body : List UInt8) (hp : m.phase ≠ .done) :
    (m.onPoll serde cls body).2.quota = (m.pollPlan, saturatingAdd u32Max m.pollsDone 1) := by
  unfold onPoll
  rw [ensureNotTerminal_eq_ok.mpr hp]
  cases cls with
  | completed => exact onCompleted_quota _ body
  | statementTimeout => exact onFailure_quota _ _ body
  | statementFailed => exact onFailure_quota _ _ body
  | running =>
      dsimp only
      split
      next => rfl
      next => exact onRunning_quota _ body
  | rateLimited =>
      dsimp only
      split
      next => rfl
      next => exact onRunning_quota _ body
  | other => rfl

theorem onPoll_of_done (cls : ResponseClass) (body : List UInt8) (hp : m.phase = .done) :
    (m.onPoll serde cls body).2 = m := by
  simp [onPoll, ensureNotTerminal, hp]

/-- A `200` is not answered with another poll. -/
theorem onCompleted_ne_pollAgain (body : List UInt8) (handle : StatementHandle) :
    (m.onCompleted serde body).1 ≠ .ok (.pollAgain handle) := by
  unfold onCompleted
  split
  next => simp
  next rs _ =>
  unfold enterTerminalResult
  split
  next => simp
  dsimp only
  split
  next => simp
  split
  next => simp
  split
  next =>
    split
    next => simp
    next => simp
  next => simp

/-- Polling again is within the quota. -/
theorem onPoll_pollAgain {cls : ResponseClass} {body : List UInt8} {handle : StatementHandle}
    (h : (m.onPoll serde cls body).1 = .ok (.pollAgain handle)) :
    m.phase ≠ .done ∧ saturatingAdd u32Max m.pollsDone 1 ≤ m.pollPlan.maxPolls := by
  have hp : m.phase ≠ .done := by
    intro hp
    simp [onPoll, ensureNotTerminal, hp] at h
  refine ⟨hp, ?_⟩
  unfold onPoll at h
  rw [ensureNotTerminal_eq_ok.mpr hp] at h
  cases cls with
  | completed => exact absurd h (onCompleted_ne_pollAgain _ body handle)
  | statementTimeout =>
      simp only [onFailure] at h
      split at h
      next => simp at h
      next => simp at h
  | statementFailed =>
      simp only [onFailure] at h
      split at h
      next => simp at h
      next => simp at h
  | running =>
      dsimp only at h
      split at h
      next => simp at h
      next hle => exact Nat.not_lt.mp hle
  | rateLimited =>
      dsimp only at h
      split at h
      next => simp at h
      next hle => exact Nat.not_lt.mp hle
  | other => simp at h

end StatementMachine

/-! ## Closed machines -/

/-- A terminal reply leaves the machine done. -/
theorem Transition.done_of_terminal {serde : Serde} {p p' : Phase} {d d' : Nat} {call : Call}
    {reply : Reply} (h : Transition serde p d call reply p' d') (hreply : reply.Terminal) :
    p' = .done := by
  cases h with
  | timedOut | failed | complete | lastPartition | completeEarly => rfl
  | refused | pollAgain | assemble | nextPartition | drainRows | drainRawPartitions =>
      exact hreply.elim
  | drainNoRows | drainNoRawPartitions | notEarly => exact hreply.elim

/-- A machine that is done stays done and refuses the call. -/
theorem Transition.closed {serde : Serde} {p' : Phase} {d d' : Nat} {call : Call} {reply : Reply}
    (h : Transition serde .done d call reply p' d') : p' = .done ∧ reply.Closed := by
  cases h with
  | refused _ hp => exact ⟨hp.elim id id, _, rfl⟩
  | pollAgain hp | timedOut hp | failed hp | complete hp | assemble hp => exact absurd rfl hp
  | drainNoRows | drainNoRawPartitions => exact ⟨rfl, rfl⟩
  | notEarly => exact ⟨rfl, _, rfl⟩

/-- Once done, no poll is counted. -/
theorem step_pollsDone_of_done {serde : Serde} {m : StatementMachine} (hp : m.phase = .done)
    (call : Call) : (step serde m call).2.pollsDone = m.pollsDone := by
  cases call with
  | onSubmit cls body => exact (Prod.mk.inj (m.onSubmit_quota cls body)).2
  | onPoll cls body => exact congrArg _ (m.onPoll_of_done cls body hp)
  | onPartition cls n body => exact (Prod.mk.inj (m.onPartition_quota cls n body)).2
  | drainRows => simp [step, StatementMachine.drainRows, hp]
  | drainRawPartitions => simp [step, StatementMachine.drainRawPartitions, hp]
  | completeEarly => simp [step, StatementMachine.completeEarly, hp]

/-- Runs of a machine that is done. -/
theorem closed_of_done {serde : Serde} {m : StatementMachine} (hp : m.phase = .done)
    {trace : List (Call × Reply)} {m' : StatementMachine}
    (h : Mealy.Runs (step serde) anyCall m trace m') :
    m'.phase = .done ∧ (∀ e ∈ trace, e.2.Closed) ∧ m'.pollsDone = m.pollsDone := by
  refine h.invariant (I := fun trace m' ↦ m'.phase = .done ∧ (∀ e ∈ trace, e.2.Closed) ∧
    m'.pollsDone = m.pollsDone) ⟨hp, by simp, rfl⟩ ?_
  rintro trace s call ⟨hs, hclosed, hpolls⟩ -
  have htransition := step_transition serde s call
  rw [hs] at htransition
  obtain ⟨hs', hreply⟩ := htransition.closed
  refine ⟨hs', ?_, (step_pollsDone_of_done hs call).trans hpolls⟩
  intro e he
  rcases List.mem_append.mp he with he | he
  · exact hclosed e he
  · rw [List.mem_singleton.mp he]
    exact hreply

/-! ## The quota -/

section Quota

variable {serde : Serde} {plan : PollPlan}

/-- The plan stays, and the counter does not go down. -/
theorem step_quota (m : StatementMachine) (call : Call) (h : m.pollsDone ≤ u32Max) :
    (step serde m call).2.pollPlan = m.pollPlan ∧
      m.pollsDone ≤ (step serde m call).2.pollsDone ∧
      (step serde m call).2.pollsDone ≤ u32Max := by
  have hsame : ∀ {m' : StatementMachine}, m'.quota = m.quota →
      m'.pollPlan = m.pollPlan ∧ m.pollsDone ≤ m'.pollsDone ∧ m'.pollsDone ≤ u32Max := by
    intro m' hquota
    obtain ⟨hplan, hpolls⟩ := Prod.mk.inj hquota
    exact ⟨hplan, hpolls.ge, hpolls.le.trans h⟩
  cases call with
  | onSubmit cls body => exact hsame (m.onSubmit_quota cls body)
  | onPoll cls body =>
      by_cases hp : m.phase = .done
      · exact hsame (congrArg _ (m.onPoll_of_done cls body hp))
      · have hquota : (m.onPoll serde cls body).2.quota =
            (m.pollPlan, saturatingAdd u32Max m.pollsDone 1) := m.onPoll_quota cls body hp
        obtain ⟨hplan, hpolls⟩ := Prod.mk.inj hquota
        refine ⟨hplan, hpolls.symm ▸ ?_, hpolls.symm ▸ ?_⟩
        · exact Nat.le_min.mpr ⟨Nat.le_succ _, h⟩
        · exact Nat.min_le_right _ _
  | onPartition cls n body => exact hsame (m.onPartition_quota cls n body)
  | drainRows =>
      refine hsame ?_
      simp only [step, StatementMachine.drainRows]
      split
      all_goals rfl
  | drainRawPartitions =>
      refine hsame ?_
      simp only [step, StatementMachine.drainRawPartitions]
      split
      all_goals rfl
  | completeEarly =>
      refine hsame ?_
      simp only [step, StatementMachine.completeEarly]
      split
      all_goals rfl

/-- A poll that is answered with another poll counts, below the saturation. -/
theorem step_polledAgain {m : StatementMachine} {call : Call}
    (hagain : polledAgain (call, (step serde m call).1)) (hmax : m.pollPlan.maxPolls < u32Max) :
    (step serde m call).2.pollsDone = m.pollsDone + 1 ∧ m.pollsDone + 1 ≤ m.pollPlan.maxPolls := by
  cases call with
  | onPoll cls body =>
      have hreply : ∃ handle, (m.onPoll serde cls body).1 = .ok (.pollAgain handle) := by
        simp only [step, Prod.map_fst] at hagain
        generalize (m.onPoll serde cls body).1 = r at hagain
        cases r with
        | error e => cases hagain
        | ok decision =>
            cases decision with
            | pollAgain handle => exact ⟨handle, rfl⟩
            | _ => cases hagain
      obtain ⟨handle, hreply⟩ := hreply
      obtain ⟨hp, hle⟩ := m.onPoll_pollAgain hreply
      have hcount : saturatingAdd u32Max m.pollsDone 1 = m.pollsDone + 1 := by
        unfold saturatingAdd at hle ⊢
        omega
      rw [hcount] at hle
      have hquota : (m.onPoll serde cls body).2.quota =
          (m.pollPlan, saturatingAdd u32Max m.pollsDone 1) := m.onPoll_quota cls body hp
      exact ⟨(Prod.mk.inj hquota).2.trans hcount, hle⟩
  | onSubmit | onPartition | drainRows | drainRawPartitions | completeEarly => cases hagain

/-- A run below the saturation polls at most `max_polls` times. -/
theorem polls_le (hmax : plan.maxPolls < u32Max) {trace : List (Call × Reply)}
    {m : StatementMachine} (h : Runs serde plan anyCall trace m) :
    trace.countP polledAgain ≤ plan.maxPolls := by
  refine (h.invariant (I := fun trace m ↦ m.pollPlan = plan ∧ m.pollsDone ≤ u32Max ∧
    trace.countP polledAgain ≤ m.pollsDone ∧ trace.countP polledAgain ≤ plan.maxPolls)
    ⟨rfl, Nat.zero_le _, Nat.zero_le _, Nat.zero_le _⟩ ?_).2.2.2
  rintro trace s call ⟨hplan, hpolls, hcount, hquota⟩ -
  have hstep : (step serde s call).2.pollPlan = s.pollPlan ∧
      s.pollsDone ≤ (step serde s call).2.pollsDone ∧ (step serde s call).2.pollsDone ≤ u32Max :=
    step_quota s call hpolls
  obtain ⟨hplan', hgrow, hpolls'⟩ := hstep
  rw [List.countP_append, List.countP_singleton]
  refine ⟨hplan'.trans hplan, hpolls', ?_⟩
  split
  next hagain =>
    obtain ⟨hnext, hle⟩ := step_polledAgain hagain (by rw [hplan]; exact hmax)
    rw [hplan] at hle
    omega
  next => omega

/-- Polls of a running statement, with a saturated quota. -/
theorem exists_polls {body : List UInt8} {status : QueryStatus}
    (hstatus : serde.queryStatus body = .ok status) (hmax : plan.maxPolls = u32Max) (n : Nat) :
    ∃ trace m, Runs serde plan anyCall trace m ∧ m.phase = .pending ∧ m.pollPlan = plan ∧
      m.pollsDone ≤ u32Max ∧ trace.countP polledAgain = n := by
  induction n with
  | zero => exact ⟨[], .new plan, .nil, rfl, rfl, Nat.zero_le _, rfl⟩
  | succ n ih =>
      obtain ⟨trace, m, hrun, hphase, hplan, hpolls, hcount⟩ := ih
      have hle : ¬ u32Max < saturatingAdd u32Max m.pollsDone 1 :=
        Nat.not_lt.mpr (Nat.min_le_right _ _)
      have hpoll : m.onPoll serde .running body = (.ok (.pollAgain status.statementHandle),
          { m with pollsDone := saturatingAdd u32Max m.pollsDone 1 }) := by
        simp [StatementMachine.onPoll, StatementMachine.ensureNotTerminal, hphase, hplan, hmax, hle,
          StatementMachine.onRunning, StatementMachine.parseWith, hstatus, Except.mapError]
      refine ⟨_, _, hrun.snoc (i := .onPoll .running body) trivial, ?_⟩
      simp only [step, hpoll, Prod.map_apply, id_eq]
      refine ⟨hphase, hplan, Nat.min_le_right _ _, ?_⟩
      rw [List.countP_append, hcount]
      rfl

/-- A quota of `u32::MAX` does not bound the polls. -/
theorem not_terminalIsTerminal {body : List UInt8} {status : QueryStatus}
    (hstatus : serde.queryStatus body = .ok status) (hmax : plan.maxPolls = u32Max) :
    ¬ TerminalIsTerminal serde plan := by
  intro hterminal
  obtain ⟨trace, m, hrun, -, -, -, hcount⟩ := exists_polls hstatus hmax (u32Max + 1)
  have hle := hterminal.polls hrun
  omega

/-- Terminal means terminal, and the quota bounds the polls exactly when it is
below the counter's saturation. -/
theorem terminalIsTerminal_iff (hstatus : ∃ body status, serde.queryStatus body = .ok status) :
    TerminalIsTerminal serde plan ↔ plan.maxPolls < u32Max := by
  constructor
  · intro hterminal
    by_contra hmax
    obtain ⟨body, status, hstatus⟩ := hstatus
    have heq : plan.maxPolls = u32Max := Nat.le_antisymm plan.maxPolls_le (Nat.not_lt.mp hmax)
    exact not_terminalIsTerminal hstatus heq hterminal
  · intro hmax
    refine ⟨?_, polls_le hmax⟩
    intro trace m call trace' m' _ hreply hrun'
    have hdone := (step_transition serde m call).done_of_terminal hreply
    exact (closed_of_done hdone hrun').2

end Quota

/-- The body of a running status. -/
def runningBody : List UInt8 :=
  Utf8.encode "\x7b\"code\":\"333334\",\"statementHandle\":\"h\"\x7d".toList

/-- A parser that knows `runningBody`. -/
def runningSerde : Serde where
  resultSet _ := .error "not a result set"
  queryStatus body := if body = runningBody then .ok ⟨"333334", ⟨"h"⟩⟩ else .error "not a status"
  queryFailure _ := .error "not a failure"

theorem runningSerde_status : runningSerde.queryStatus runningBody = .ok ⟨"333334", ⟨"h"⟩⟩ := by
  simp [runningSerde]

/-- The default quota of 120 polls. -/
theorem terminalIsTerminal_iff_default :
    TerminalIsTerminal runningSerde .default :=
  (terminalIsTerminal_iff ⟨runningBody, _, runningSerde_status⟩).mpr (by decide)

/-- A quota of `u32::MAX` is passed by the poll after it. -/
theorem not_terminalIsTerminal_saturated :
    ¬ TerminalIsTerminal runningSerde ⟨u32Max, 4, none, Nat.le_refl _⟩ :=
  not_terminalIsTerminal runningSerde_status rfl

end FrankenSnowflake.SqlApi
