import FrankenSnowflake.Foundation.Fallible
import FrankenSnowflake.Http.Transport

/-!
# The retry contract

What a call sends and how long it waits, against every environment.  One attempt
ends the call or is followed by a wait and the next attempt; the number of sends,
the delays and the rest of the contract follow by induction on the attempts that
are left.
-/

namespace FrankenSnowflake.Http

open Foundation

/-! ## The contract -/

/-- What happened in a call. -/
abbrev Event := (action : Action) × action.Reply

/-- The wire requests that were sent. -/
def sends (es : List Event) : List WireRequest :=
  es.filterMap fun e ↦ match e.1 with
    | .send wire _ => some wire
    | .checkpoint | .cancelReason | .budget | .clock | .sleep _ => none

/-- The delays of all sleeps. -/
def slept (es : List Event) : List Nat :=
  es.filterMap fun e ↦ match e.1 with
    | .sleep delay => some delay
    | .checkpoint | .cancelReason | .budget | .clock | .send .. => none

/-- How long was slept before the next send, if there is one. -/
def waitBeforeSend : List Event → Option Nat
  | [] => none
  | ⟨.send .., _⟩ :: _ => some 0
  | ⟨.sleep delay, slept⟩ :: es => (waitBeforeSend es).map fun wait ↦ if slept then delay + wait else wait
  | ⟨.checkpoint, _⟩ :: es | ⟨.cancelReason, _⟩ :: es | ⟨.budget, _⟩ :: es | ⟨.clock, _⟩ :: es =>
      waitBeforeSend es

/-- After an answer with a Retry-After of `n` seconds, the next send comes `n`
seconds later or not at all. -/
def HonoursRetryAfter (n : Nat) : List Event → Prop
  | [] => True
  | ⟨.send .., .ok response⟩ :: es =>
      (CarriesRetryAfter response.headers n → ∀ delay ∈ waitBeforeSend es, n * 1000 ≤ delay) ∧
        HonoursRetryAfter n es
  | _ :: es => HonoursRetryAfter n es

/-- A submit that carries a request id and `retry=true`, or another route than a
submit. -/
def MayBeRetried : TransportRoute → Prop
  | .submit => False
  | .submitWithQuery query =>
      (∃ value, value ≠ [] ∧ ("requestId".toList, value) ∈ query) ∧
        ("retry".toList, "true".toList) ∈ query
  | .submitRetry _ | .poll _ | .partition _ _ | .cancel _ => True

/-- The contract of a call, but for Retry-After. -/
structure KeepsContract (policy : RetryPolicy) (route : TransportRoute) (es : List Event) : Prop where
  sends_le : (sends es).length ≤ max 1 policy.maxAttempts.toNat
  same : ∀ wire ∈ sends es, ∀ wire' ∈ sends es, wire = wire'
  retried : 1 < (sends es).length → MayBeRetried route
  slept_le : (slept es).sum ≤ policy.totalBudgetMs.toNat
  cancelled : es.Pairwise fun e e' ↦ e = ⟨.checkpoint, false⟩ → sends [e'] = []

/-- Every call ends and keeps the contract, in particular for a Retry-After of `n`
seconds. -/
def RetryContract (n : Nat) : Prop :=
  ∀ (α : Type) (config : TransportConfig) (planned : PlannedTransportRequest)
    (routeKind : TransportRouteKind) (fromResponse : Response → Except TransportError α),
    let call := execute config planned routeKind fromResponse
    (∀ environment, ∃ es outcome, call.Trace es outcome ∧ Program.Answers environment [] es) ∧
    ∀ es outcome, call.Trace es outcome → KeepsContract config.retry planned.route es ∧
      (config.retry.respectRetryAfter = true → HonoursRetryAfter n es)

theorem mayBeRetried_iff (route : TransportRoute) :
    routeAllowsAutomaticRetry route = true ↔ MayBeRetried route := by
  cases route with
  | submit => simp [routeAllowsAutomaticRetry, MayBeRetried, TransportRoute.hasRetryContract]
  | submitWithQuery query =>
      simp only [routeAllowsAutomaticRetry, MayBeRetried, TransportRoute.hasRetryContract,
        submitQueryHasRetryContract, Bool.or_false, Bool.and_eq_true, List.any_eq_true,
        decide_eq_true_eq, Prod.exists]
      constructor
      · rintro ⟨⟨key, value, hmem, rfl, hvalue⟩, key', value', hmem', rfl, rfl⟩
        exact ⟨⟨value, hvalue, hmem⟩, hmem'⟩
      · rintro ⟨⟨value, hvalue, hmem⟩, hmem'⟩
        exact ⟨⟨_, value, hmem, rfl, hvalue⟩, _, _, hmem', rfl, rfl⟩
  | submitRetry requestId => exact iff_of_true rfl trivial
  | poll handle => exact iff_of_true rfl trivial
  | partition handle index => exact iff_of_true rfl trivial
  | cancel handle => exact iff_of_true rfl trivial

/-! ## Delays -/

namespace RetryPolicy

variable {policy : RetryPolicy} {requestId : Option Text} {route : TransportRouteKind}
  {attempt spentMs : Nat} {header : Option Nat} {retry : RetryDecision}

theorem delayFor_eq_some {delay : Nat}
    (h : policy.delayFor requestId route attempt header spentMs = some delay) :
    attempt < policy.maxAttempts.toNat ∧ delay + spentMs ≤ policy.totalBudgetMs.toNat ∧
      (policy.respectRetryAfter = true → ∀ d ∈ header, delay = d) := by
  unfold delayFor at h
  dsimp only at h
  rw [Option.ite_none_left_eq_some, Option.ite_none_left_eq_some] at h
  obtain ⟨hstop, hremaining, hdelay⟩ := h
  simp only [not_or, not_le] at hstop
  have hdelay := Option.some.inj hdelay
  rw [hdelay] at hremaining
  refine ⟨hstop.2.1, by omega, fun hrespect d hd ↦ ?_⟩
  rw [Option.mem_def] at hd
  simpa [hd, hrespect, Option.filter_some] using hdelay.symm

/-- The decision to retry. -/
theorem nextRetry_eq_some (h : policy.nextRetry requestId route attempt header spentMs = some retry) :
    attempt < policy.maxAttempts.toNat ∧ retry.delay + spentMs ≤ policy.totalBudgetMs.toNat ∧
      retry.spentAfterMs = spentMs + retry.delay ∧
      (policy.respectRetryAfter = true → ∀ d ∈ header, retry.delay = d) := by
  unfold nextRetry at h
  obtain ⟨delay, hdelay, hretry⟩ := Option.bind_eq_some_iff.mp h
  cases Option.some.inj hretry
  obtain ⟨hattempt, hbudget, hheader⟩ := delayFor_eq_some hdelay
  have htotal := policy.totalBudgetMs.toNat_lt
  refine ⟨hattempt, hbudget, ?_, hheader⟩
  show min (spentMs + delay) u64Max = spentMs + delay
  rw [u64Max]
  omega

end RetryPolicy

/-! ## One attempt -/

/-- A wait that is followed by the next attempt. -/
def waited (delay : Nat) : List Event := [⟨.checkpoint, true⟩, ⟨.sleep delay, true⟩, ⟨.checkpoint, true⟩]

theorem trace_cancelReasonOr {α : Type} {fallback : CancelReason} {es : List Event}
    {outcome : TransportOutcome α} (h : (cancelReasonOr fallback).Trace es outcome) :
    ∃ recorded, es = [⟨.cancelReason, recorded⟩] := by
  unfold cancelReasonOr at h
  rw [Program.trace_ask] at h
  obtain ⟨recorded, es', rfl, h⟩ := h
  rw [Program.trace_done] at h
  exact ⟨recorded, by rw [h.1]⟩

/-- A wait goes on with the next attempt, or nothing is sent any more. -/
theorem trace_waitRetryDelay {α : Type} {delay : Nat} {k : Unit → HttpM (TransportOutcome α)}
    {es : List Event} {outcome : TransportOutcome α} (h : (waitRetryDelay delay k).Trace es outcome) :
    (∃ es', es = waited delay ++ es' ∧ (k ()).Trace es' outcome) ∨
      sends es = [] ∧ (slept es).sum ≤ delay := by
  unfold waitRetryDelay at h
  rw [Program.trace_ask] at h
  obtain ⟨passed, es, rfl, h⟩ := h
  cases passed with
  | false =>
      obtain ⟨recorded, rfl⟩ := trace_cancelReasonOr h
      exact Or.inr ⟨rfl, Nat.zero_le _⟩
  | true =>
      simp only [if_true] at h
      rw [Program.trace_ask] at h
      obtain ⟨passed, es, rfl, h⟩ := h
      cases passed with
      | false =>
          obtain ⟨recorded, rfl⟩ := trace_cancelReasonOr h
          exact Or.inr ⟨rfl, le_rfl⟩
      | true =>
          simp only [if_true] at h
          rw [Program.trace_ask] at h
          obtain ⟨passed, es, rfl, h⟩ := h
          cases passed with
          | false =>
              obtain ⟨recorded, rfl⟩ := trace_cancelReasonOr h
              exact Or.inr ⟨rfl, le_rfl⟩
          | true => exact Or.inl ⟨es, rfl, h⟩

namespace Call

variable {α : Type} {call : Call α}

/-- What an attempt does: it ends the call before or after its send, or it is
followed by a wait and the next attempt. -/
inductive Attempt (call : Call α) (attempt spentMs : Nat) (outcome : TransportOutcome α) :
    List Event → Prop where
  | unsent {es : List Event} (hsends : sends es = []) (hslept : slept es = []) :
      Attempt call attempt spentMs outcome es
  | last {b t reply es} (hsends : sends es = [])
      (hslept : (slept es).sum + spentMs ≤ max spentMs call.config.retry.totalBudgetMs.toNat) :
      Attempt call attempt spentMs outcome
        (⟨.checkpoint, true⟩ :: ⟨.budget, b⟩ :: ⟨.send call.wire t, reply⟩ :: es)
  | next {b t reply clock header retry es}
      (hclock : clock = [] ∨ ∃ now, clock = [⟨.clock, now⟩])
      (hroute : routeAllowsAutomaticRetry call.wire.route = true)
      (hretry : call.nextRetry attempt header spentMs = some retry)
      (hheader : ∀ response, reply = .ok response →
        ∃ now, header = retryAfterMs now response.headers)
      (hnext : (call.attempts (attempt + 1) retry.spentAfterMs).Trace es outcome) :
      Attempt call attempt spentMs outcome
        (⟨.checkpoint, true⟩ :: ⟨.budget, b⟩ :: ⟨.send call.wire t, reply⟩ ::
          (clock ++ waited retry.delay ++ es))

theorem sends_append (es es' : List Event) : sends (es ++ es') = sends es ++ sends es' :=
  List.filterMap_append

theorem slept_append (es es' : List Event) : slept (es ++ es') = slept es ++ slept es' :=
  List.filterMap_append

/-- An attempt that may be followed by another one. -/
theorem attempt_of_wait (clock : List Event) {attempt spentMs : Nat} {outcome : TransportOutcome α}
    {b : Budget × Nat} {t : Option Nat} {reply : Except ClientError Response} {es : List Event}
    {header : Option Nat} {retry : RetryPolicy.RetryDecision}
    (hclock : clock = [] ∨ ∃ now, clock = [⟨.clock, now⟩])
    (hroute : routeAllowsAutomaticRetry call.wire.route = true)
    (hretry : call.nextRetry attempt header spentMs = some retry)
    (hheader : ∀ response, reply = .ok response →
      ∃ now, header = retryAfterMs now response.headers)
    (h : (waitRetryDelay retry.delay fun _ ↦
      call.attempts (attempt + 1) retry.spentAfterMs).Trace es outcome) :
    Attempt call attempt spentMs outcome
      (⟨.checkpoint, true⟩ :: ⟨.budget, b⟩ :: ⟨.send call.wire t, reply⟩ :: (clock ++ es)) := by
  have hsends : sends clock = [] := by
    rcases hclock with rfl | ⟨now, rfl⟩ <;> rfl
  have hslept : slept clock = [] := by
    rcases hclock with rfl | ⟨now, rfl⟩ <;> rfl
  rcases trace_waitRetryDelay h with ⟨es', rfl, hnext⟩ | ⟨hsends', hslept'⟩
  · rw [← List.append_assoc]
    exact .next hclock hroute hretry hheader hnext
  · refine .last ?_ ?_
    · rw [sends_append, hsends, hsends', List.append_nil]
    · have hbudget := (RetryPolicy.nextRetry_eq_some hretry).2.1
      rw [slept_append, hslept, List.nil_append]
      exact le_trans (by omega) (le_max_right _ _)

theorem trace_attempts {attempt spentMs : Nat} {es : List Event} {outcome : TransportOutcome α}
    (h : (call.attempts attempt spentMs).Trace es outcome) :
    Attempt call attempt spentMs outcome es := by
  have hlast : ∀ {b t reply} {es : List Event}, sends es = [] → slept es = [] →
      Attempt call attempt spentMs outcome
        (⟨.checkpoint, true⟩ :: ⟨.budget, b⟩ :: ⟨.send call.wire t, reply⟩ :: es) := by
    intro b t reply es hsends hslept
    refine .last hsends ?_
    rw [hslept, List.sum_nil, Nat.zero_add]
    exact le_max_left _ _
  rw [attempts, Program.trace_ask] at h
  obtain ⟨passed, es, rfl, h⟩ := h
  cases passed with
  | false =>
      obtain ⟨recorded, rfl⟩ := trace_cancelReasonOr h
      exact .unsent rfl rfl
  | true =>
      simp only [if_true] at h
      rw [Program.trace_ask] at h
      obtain ⟨⟨ambient, budgetNow⟩, es, rfl, h⟩ := h
      dsimp only at h
      split at h
      · rw [Program.trace_done] at h
        rw [h.1]
        exact .unsent rfl rfl
      · rw [Program.trace_ask] at h
        obtain ⟨reply, es, rfl, h⟩ := h
        rcases reply with (_ | _ | message) | response
        · obtain ⟨recorded, rfl⟩ := trace_cancelReasonOr h
          exact hlast rfl rfl
        · obtain ⟨recorded, rfl⟩ := trace_cancelReasonOr h
          exact hlast rfl rfl
        · dsimp only at h
          split at h
          · rename_i hroute
            split at h
            · rename_i retry hretry
              refine attempt_of_wait [] (Or.inl rfl) hroute hretry ?_ h
              intro response hok
              cases hok
            · rw [Program.trace_done] at h
              rw [h.1]
              exact hlast rfl rfl
          · rw [Program.trace_done] at h
            rw [h.1]
            exact hlast rfl rfl
        · dsimp only at h
          rw [Program.trace_ask] at h
          obtain ⟨now, es, rfl, h⟩ := h
          have hanswered : ∀ {b t} {es : List Event}, es = [] → Attempt call attempt spentMs outcome
              (⟨.checkpoint, true⟩ :: ⟨.budget, b⟩ :: ⟨.send call.wire t, .ok response⟩ ::
                ⟨.clock, now⟩ :: es) := by
            rintro b t es rfl
            exact hlast rfl rfl
          split at h
          · split at h
            · rename_i hroute
              split at h
              · rename_i retry hretry
                refine attempt_of_wait [⟨.clock, now⟩] (Or.inr ⟨now, rfl⟩) hroute hretry ?_ h
                rintro _ ⟨⟩
                exact ⟨now, rfl⟩
              · exact hanswered (Program.trace_done.mp h).1
            · exact hanswered (Program.trace_done.mp h).1
          · split at h
            · exact hanswered (Program.trace_done.mp h).1
            · exact hanswered (Program.trace_done.mp h).1

/-! ## All attempts -/

theorem waitBeforeSend_of_unsent {es : List Event} (h : sends es = []) : waitBeforeSend es = none := by
  induction es with
  | nil => rfl
  | cons e es ih =>
      obtain ⟨action, reply⟩ := e
      cases action with
      | send wire t => cases h
      | sleep delay =>
          have hes : sends es = [] := h
          rw [waitBeforeSend, ih hes]
          rfl
      | checkpoint | cancelReason | budget | clock =>
          have hes : sends es = [] := h
          rw [waitBeforeSend, ih hes]

theorem honoursRetryAfter_of_unsent {n : Nat} {es : List Event} (h : sends es = []) :
    HonoursRetryAfter n es := by
  induction es with
  | nil => trivial
  | cons e es ih =>
      obtain ⟨action, reply⟩ := e
      cases action with
      | send wire t => cases h
      | checkpoint | cancelReason | budget | clock | sleep delay => exact ih h

theorem pairwise_of_unsent {es : List Event} (h : sends es = []) :
    es.Pairwise fun e e' ↦ e = (⟨.checkpoint, false⟩ : Event) → sends [e'] = [] := by
  refine List.pairwise_of_forall_mem_list fun e _ e' he' _ ↦ ?_
  obtain ⟨es₁, es₂, rfl⟩ := List.append_of_mem he'
  rw [← List.singleton_append, sends_append, sends_append, List.append_eq_nil_iff,
    List.append_eq_nil_iff] at h
  exact h.2.1

/-- The contract of the attempts from one on. -/
structure Keeps (call : Call α) (attempt spentMs : Nat) (es : List Event) : Prop where
  sends_le : (sends es).length ≤ max 1 (call.config.retry.maxAttempts.toNat + 1 - attempt)
  same : ∀ wire ∈ sends es, wire = call.wire
  retried : 1 < (sends es).length → routeAllowsAutomaticRetry call.wire.route = true
  slept_le : (slept es).sum + spentMs ≤ max spentMs call.config.retry.totalBudgetMs.toNat
  cancelled : es.Pairwise fun e e' ↦ e = (⟨.checkpoint, false⟩ : Event) → sends [e'] = []
  honours : call.config.retry.respectRetryAfter = true →
    ∀ n, n * 1000 ≤ u64Max → HonoursRetryAfter n es

theorem keeps_of_unsent {attempt spentMs : Nat} {es : List Event} (hsends : sends es = [])
    (hslept : slept es = []) : Keeps call attempt spentMs es where
  sends_le := by
    rw [hsends]
    exact Nat.zero_le _
  same := by
    rw [hsends]
    exact fun wire hwire ↦ absurd hwire List.not_mem_nil
  retried := by
    rw [hsends]
    exact fun hlt ↦ absurd hlt (Nat.not_lt_zero 1)
  slept_le := by
    rw [hslept, List.sum_nil, Nat.zero_add]
    exact le_max_left _ _
  cancelled := pairwise_of_unsent hsends
  honours _ n _ := honoursRetryAfter_of_unsent hsends

theorem pairwise_append_of_uncancelled (es : List Event) {es' : List Event}
    (h : ∀ e ∈ es, e ≠ (⟨.checkpoint, false⟩ : Event))
    (h' : es'.Pairwise fun e e' ↦ e = (⟨.checkpoint, false⟩ : Event) → sends [e'] = []) :
    (es ++ es').Pairwise fun e e' ↦ e = (⟨.checkpoint, false⟩ : Event) → sends [e'] = [] := by
  refine List.pairwise_append.mpr ⟨?_, h', fun e he _ _ heq ↦ absurd heq (h e he)⟩
  exact List.pairwise_of_forall_mem_list fun e he _ _ heq ↦ absurd heq (h e he)

theorem keeps_of_last {attempt spentMs : Nat} {b : Budget × Nat} {t : Option Nat}
    {reply : Except ClientError Response} {es : List Event} (hsends : sends es = [])
    (hslept : (slept es).sum + spentMs ≤ max spentMs call.config.retry.totalBudgetMs.toNat) :
    Keeps call attempt spentMs
      (⟨.checkpoint, true⟩ :: ⟨.budget, b⟩ :: ⟨.send call.wire t, reply⟩ :: es) := by
  have hone : sends (⟨.checkpoint, true⟩ :: ⟨.budget, b⟩ :: ⟨.send call.wire t, reply⟩ :: es) =
      [call.wire] := congrArg (call.wire :: ·) hsends
  refine ⟨?_, ?_, ?_, hslept, ?_, fun _ n _ ↦ ?_⟩
  · rw [hone]
    exact le_max_left _ _
  · rw [hone]
    exact fun wire hwire ↦ List.mem_singleton.mp hwire
  · rw [hone]
    exact fun hlt ↦ absurd hlt (lt_irrefl 1)
  · refine pairwise_append_of_uncancelled [⟨.checkpoint, true⟩, ⟨.budget, b⟩,
      ⟨.send call.wire t, reply⟩] ?_ (pairwise_of_unsent hsends)
    simp
  · cases reply with
    | error e =>
        show HonoursRetryAfter n es
        exact honoursRetryAfter_of_unsent hsends
    | ok response =>
        refine ⟨fun _ delay hdelay ↦ ?_, honoursRetryAfter_of_unsent hsends⟩
        rw [waitBeforeSend_of_unsent hsends] at hdelay
        cases hdelay

theorem keeps_of_next {attempt spentMs : Nat} {b : Budget × Nat} {t : Option Nat}
    {reply : Except ClientError Response} {clock es : List Event} {header : Option Nat}
    {retry : RetryPolicy.RetryDecision} (hclock : clock = [] ∨ ∃ now, clock = [⟨.clock, now⟩])
    (hroute : routeAllowsAutomaticRetry call.wire.route = true)
    (hretry : call.nextRetry attempt header spentMs = some retry)
    (hheader : ∀ response, reply = .ok response →
      ∃ now, header = retryAfterMs now response.headers)
    (h : Keeps call (attempt + 1) retry.spentAfterMs es) :
    Keeps call attempt spentMs (⟨.checkpoint, true⟩ :: ⟨.budget, b⟩ :: ⟨.send call.wire t, reply⟩ ::
      (clock ++ waited retry.delay ++ es)) := by
  obtain ⟨hattempt, hbudget, hspent, hdelay⟩ := RetryPolicy.nextRetry_eq_some hretry
  have hsends : sends (⟨.checkpoint, true⟩ :: ⟨.budget, b⟩ :: ⟨.send call.wire t, reply⟩ ::
      (clock ++ waited retry.delay ++ es)) = call.wire :: sends es := by
    rcases hclock with rfl | ⟨now, rfl⟩ <;> rfl
  have hslept : slept (⟨.checkpoint, true⟩ :: ⟨.budget, b⟩ :: ⟨.send call.wire t, reply⟩ ::
      (clock ++ waited retry.delay ++ es)) = retry.delay :: slept es := by
    rcases hclock with rfl | ⟨now, rfl⟩ <;> rfl
  have hwait : waitBeforeSend (clock ++ waited retry.delay ++ es) =
      (waitBeforeSend es).map (retry.delay + ·) := by
    rcases hclock with rfl | ⟨now, rfl⟩ <;> rfl
  refine ⟨?_, ?_, fun _ ↦ hroute, ?_, ?_, fun hrespect n hn ↦ ?_⟩
  · have hle := h.sends_le
    rw [hsends, List.length_cons]
    omega
  · rw [hsends]
    exact List.forall_mem_cons.mpr ⟨rfl, h.same⟩
  · have hle := h.slept_le
    rw [hspent] at hle
    rw [hslept, List.sum_cons]
    omega
  · refine pairwise_append_of_uncancelled (⟨.checkpoint, true⟩ :: ⟨.budget, b⟩ ::
      ⟨.send call.wire t, reply⟩ :: (clock ++ waited retry.delay)) ?_ h.cancelled
    rcases hclock with rfl | ⟨now, rfl⟩ <;> simp [waited]
  · have hrest : HonoursRetryAfter n (clock ++ waited retry.delay ++ es) := by
      rcases hclock with rfl | ⟨now, rfl⟩ <;> exact h.honours hrespect n hn
    cases reply with
    | error e => exact hrest
    | ok response =>
        refine ⟨fun hcarries delay hmem ↦ ?_, hrest⟩
        obtain ⟨now, rfl⟩ := hheader response rfl
        rw [retryAfterMs_of_carries hcarries, if_pos hn] at hdelay
        rw [hwait] at hmem
        obtain ⟨wait, -, rfl⟩ := Option.map_eq_some_iff.mp hmem
        rw [hdelay hrespect _ rfl]
        exact Nat.le_add_right _ _

theorem keeps_of_trace {attempt spentMs : Nat} {es : List Event} {outcome : TransportOutcome α}
    (h : (call.attempts attempt spentMs).Trace es outcome) : Keeps call attempt spentMs es := by
  -- by induction on the attempts that are left
  induction hleft : call.config.retry.maxAttempts.toNat - attempt using Nat.strong_induction_on
    generalizing attempt spentMs es with
  | _ left ih =>
    cases trace_attempts h with
    | unsent hsends hslept => exact keeps_of_unsent hsends hslept
    | last hsends hslept => exact keeps_of_last hsends hslept
    | next hclock hroute hretry hheader hnext =>
        refine keeps_of_next hclock hroute hretry hheader (ih _ ?_ hnext rfl)
        have hlt := call.lt_of_nextRetry hretry
        omega

end Call

theorem wireRequest_route {config : TransportConfig} {method : Method} {route : TransportRoute}
    {body : List UInt8} {auth : AuthorizationDescriptor} {retryResubmit : Bool} {wire : WireRequest}
    (h : wireRequest config method route body auth retryResubmit = .ok wire) : wire.route = route := by
  unfold wireRequest at h
  obtain ⟨_, -, h⟩ := bind_eq_ok_iff.mp h
  split at h
  · cases h
  · obtain ⟨_, -, h⟩ := bind_eq_ok_iff.mp h
    cases h
    rfl

/-- A call keeps the contract, for every Retry-After that fits into milliseconds. -/
theorem execute_keeps {α : Type} {config : TransportConfig} {planned : PlannedTransportRequest}
    {routeKind : TransportRouteKind} {fromResponse : Response → Except TransportError α}
    {es : List Event} {outcome : TransportOutcome α}
    (h : (execute config planned routeKind fromResponse).Trace es outcome) :
    KeepsContract config.retry planned.route es ∧ (config.retry.respectRetryAfter = true →
      ∀ n, n * 1000 ≤ u64Max → HonoursRetryAfter n es) := by
  unfold execute at h
  split at h
  · rw [Program.trace_done] at h
    rw [h.1]
    refine ⟨⟨Nat.zero_le _, ?_, ?_, Nat.zero_le _, .nil⟩, fun _ _ _ ↦ trivial⟩
    · exact fun wire hwire ↦ absurd hwire List.not_mem_nil
    · exact fun hlt ↦ absurd hlt (Nat.not_lt_zero 1)
  · rename_i wire hwire
    have hkeeps := Call.keeps_of_trace h
    have hroute := wireRequest_route hwire
    refine ⟨⟨?_, ?_, ?_, ?_, hkeeps.cancelled⟩, hkeeps.honours⟩
    · exact hkeeps.sends_le
    · exact fun w hw w' hw' ↦ (hkeeps.same w hw).trans (hkeeps.same w' hw').symm
    · intro hlt
      rw [← hroute, ← mayBeRetried_iff]
      exact hkeeps.retried hlt
    · exact le_trans hkeeps.slept_le (max_le (Nat.zero_le _) le_rfl)

/-! ## A Retry-After that does not fit -/

theorem trace_waited {α : Type} {delay : Nat} {k : Unit → HttpM (TransportOutcome α)}
    {es : List Event} {outcome : TransportOutcome α} (h : (k ()).Trace es outcome) :
    (waitRetryDelay delay k).Trace (waited delay ++ es) outcome := by
  refine Program.trace_ask.mpr ⟨true, _, rfl, ?_⟩
  refine Program.trace_ask.mpr ⟨true, _, rfl, ?_⟩
  exact Program.trace_ask.mpr ⟨true, _, rfl, h⟩

section Late

variable {α : Type} (call : Call α) {outcome : TransportOutcome α} (attempt spentMs budgetNow : Nat)
  (ambient : Budget) (response : Response) (now : Option Nat)
  (hbudget : budgetExhaustionReasonAt
    (call.config.retry.attemptBudget ambient call.planned.budget attempt) budgetNow = none)
include hbudget

/-- An attempt that is retried. -/
theorem Call.trace_next {retry : RetryPolicy.RetryDecision} {es : List Event}
    (hroute : routeAllowsAutomaticRetry call.wire.route = true)
    (hstatus : isRetryableStatus response.status = true)
    (hretry : call.nextRetry attempt (retryAfterMs now response.headers) spentMs = some retry)
    (hnext : (call.attempts (attempt + 1) retry.spentAfterMs).Trace es outcome) :
    ∃ t, (call.attempts attempt spentMs).Trace (⟨.checkpoint, true⟩ ::
      ⟨.budget, (ambient, budgetNow)⟩ :: ⟨.send call.wire t, .ok response⟩ :: ⟨.clock, now⟩ ::
        (waited retry.delay ++ es)) outcome := by
  refine ⟨sooner (budgetTimeoutAt (call.config.retry.attemptBudget ambient call.planned.budget attempt)
    budgetNow) (call.config.attemptTimeoutFor call.routeKind), ?_⟩
  rw [Call.attempts]
  refine Program.trace_ask.mpr ⟨true, _, rfl, ?_⟩
  rw [if_pos rfl]
  refine Program.trace_ask.mpr ⟨(ambient, budgetNow), _, rfl, ?_⟩
  dsimp only
  split
  · rename_i hreason
    cases hbudget.symm.trans hreason
  · refine Program.trace_ask.mpr ⟨.ok response, _, rfl, ?_⟩
    refine Program.trace_ask.mpr ⟨now, _, rfl, ?_⟩
    rw [if_pos hstatus, if_pos hroute]
    split
    · rename_i hretry'
      cases hretry.symm.trans hretry'
      exact trace_waited hnext
    · rename_i hretry'
      cases hretry.symm.trans hretry'

/-- An attempt that is answered. -/
theorem Call.trace_answer {value : α} (hstatus : isRetryableStatus response.status = false)
    (hvalue : call.fromResponse response = .ok value) :
    ∃ t, (call.attempts attempt spentMs).Trace [⟨.checkpoint, true⟩,
      ⟨.budget, (ambient, budgetNow)⟩, ⟨.send call.wire t, .ok response⟩, ⟨.clock, now⟩]
      (.ok value) := by
  refine ⟨sooner (budgetTimeoutAt (call.config.retry.attemptBudget ambient call.planned.budget attempt)
    budgetNow) (call.config.attemptTimeoutFor call.routeKind), ?_⟩
  rw [Call.attempts]
  refine Program.trace_ask.mpr ⟨true, _, rfl, ?_⟩
  rw [if_pos rfl]
  refine Program.trace_ask.mpr ⟨(ambient, budgetNow), _, rfl, ?_⟩
  dsimp only
  split
  · rename_i hreason
    cases hbudget.symm.trans hreason
  · refine Program.trace_ask.mpr ⟨.ok response, _, rfl, ?_⟩
    refine Program.trace_ask.mpr ⟨now, _, rfl, ?_⟩
    rw [if_neg (Bool.eq_false_iff.mp hstatus), hvalue]
    exact .done _

end Late

/-- Two attempts, no delay of its own, and Retry-After is respected. -/
def eagerPolicy : RetryPolicy := ⟨2, 0, 0, 1, true, false⟩

/-- A poll under the eager policy. -/
def eagerCall : Call Unit where
  config := ⟨[], [], 0, eagerPolicy, none, none⟩
  planned := ⟨.poll [], ⟨.oAuth, []⟩, [], false, none, ⟨none, 1, none⟩⟩
  routeKind := .poll
  wire := ⟨.get, sqlApiStatementsPath ++ ['/'], .poll [], [
    ⟨"Authorization".toList, "Bearer ".toList⟩,
    ⟨"X-Snowflake-Authorization-Token-Type".toList, "OAUTH".toList⟩,
    ⟨"Accept".toList, "application/json".toList⟩, ⟨"User-Agent".toList, []⟩], []⟩
  fromResponse _ := .ok ()

theorem execute_of_wire {config : TransportConfig} {planned : PlannedTransportRequest}
    {routeKind : TransportRouteKind} {fromResponse : Response → Except TransportError α}
    {wire : WireRequest} (h : wireRequest config routeKind.method planned.route planned.body
      planned.auth planned.retryResubmit = .ok wire) :
    execute config planned routeKind fromResponse =
      Call.attempts ⟨config, planned, routeKind, wire, fromResponse⟩ 1 0 := by
  rw [execute, h]

theorem execute_eagerCall : execute eagerCall.config eagerCall.planned eagerCall.routeKind
    eagerCall.fromResponse = eagerCall.attempts 1 0 := by
  have hwire : wireRequest eagerCall.config .get eagerCall.planned.route eagerCall.planned.body
      eagerCall.planned.auth eagerCall.planned.retryResubmit = .ok eagerCall.wire := by
    decide +kernel
  exact execute_of_wire hwire

/-- A refused answer with a Retry-After of `n` seconds. -/
def busy (n : Nat) : Response := ⟨503, [("Retry-After".toList, Nat.toDigits 10 n)], []⟩

theorem digitsValue_toDigits (n : Nat) : digitsValue (Nat.toDigits 10 n) = n := by
  have h := Nat.ofDigitChars_ten_toDigits (n := n)
  rwa [Nat.ofDigitChars_eq_foldl] at h

theorem parseDigits_toDigits (n : Nat) : parseDigits (Nat.toDigits 10 n) = some n := by
  rw [parseDigits, digitsValue_toDigits, if_pos]
  refine ⟨Nat.toDigits_ne_nil, List.all_eq_true.mpr fun c hc ↦ ?_⟩
  exact Nat.isDigit_of_mem_toDigits (by decide) (by decide) hc

theorem busy_carries (n : Nat) : CarriesRetryAfter (busy n).headers n := by
  have htrim : Unicode.trim (Nat.toDigits 10 n) = Nat.toDigits 10 n := by
    apply Unicode.trim_eq_self
    intro c hc
    have hdigit := Nat.isDigit_of_mem_toDigits (by decide) (by decide) hc
    simp only [Char.isDigit, Bool.and_eq_true, decide_eq_true_eq, UInt32.le_iff_toNat_le] at hdigit
    have hle : 48 ≤ c.toNat ∧ c.toNat ≤ 57 := hdigit
    simp only [Unicode.isWhitespace, Bool.or_eq_false_iff, Bool.and_eq_false_iff, decide_eq_false_iff_not,
      beq_eq_false_iff_ne]
    omega
  exact ⟨Nat.toDigits 10 n, rfl, by rw [htrim, parseDigits_toDigits]⟩

/-- A Retry-After that does not fit into milliseconds is not honoured. -/
theorem not_retryContract_of_lt {n : Nat} (hn : u64Max < n * 1000) : ¬ RetryContract n := by
  have hheader : retryAfterMs none (busy n).headers = none := by
    rw [retryAfterMs_of_carries (busy_carries n), if_neg (not_le.mpr hn)]
  have hretry : eagerCall.nextRetry 1 none 0 = some ⟨0, 0⟩ := rfl
  have hbudget (attempt : Nat) (h : attempt ≤ 2) : budgetExhaustionReasonAt
      (eagerPolicy.attemptBudget ⟨none, 1, none⟩ eagerCall.planned.budget attempt) 0 = none := by
    rcases Nat.le_succ_iff.mp h with h | rfl
    · rcases Nat.le_one_iff_eq_zero_or_eq_one.mp h with rfl | rfl <;> rfl
    · rfl
  obtain ⟨t, hanswer⟩ := Call.trace_answer eagerCall 2 0 0 ⟨none, 1, none⟩ ⟨200, [], []⟩ none
    (hbudget 2 le_rfl) rfl rfl
  obtain ⟨t', hnext⟩ := Call.trace_next eagerCall 1 0 0 ⟨none, 1, none⟩ (busy n) none
    (hbudget 1 (Nat.le_succ 1)) rfl rfl (by rw [hheader, hretry]) hanswer
  intro hcontract
  rw [← execute_eagerCall] at hnext
  have hhonours := ((hcontract Unit _ _ _ _).2 _ _ hnext).2 rfl
  have hdelay := hhonours.1 (busy_carries n) 0 rfl
  rw [u64Max] at hn
  omega

/-- The contract holds for the Retry-Afters whose milliseconds fit into 64 bits. -/
theorem retryContract_iff (n : Nat) : RetryContract n ↔ n * 1000 ≤ u64Max := by
  constructor
  · intro h
    by_contra hn
    exact not_retryContract_of_lt (not_le.mp hn) h
  · intro hn α config planned routeKind fromResponse
    constructor
    · exact fun environment ↦ Program.exists_trace _ environment []
    · intro es outcome h
      obtain ⟨hkeeps, hhonours⟩ := execute_keeps h
      exact ⟨hkeeps, fun hrespect ↦ hhonours hrespect n hn⟩

theorem not_retryContract : ¬ RetryContract 18446744073709552 := by
  apply not_retryContract_of_lt
  decide

end FrankenSnowflake.Http
