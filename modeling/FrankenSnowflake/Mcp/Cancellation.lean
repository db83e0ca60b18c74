import Mathlib.Logic.Function.Basic
import Mathlib.Tactic.Tauto
import FrankenSnowflake.Foundation.JsonValue
import FrankenSnowflake.Foundation.Utf8

/-!
# Cancelling tool calls

All calls of all transports share one set of cancelled request ids.  A call is
cancelled by a notification that names its JSON-RPC id, or by the end of its
connection; the cancel probe of a call looks its id up in the set.
-/

namespace FrankenSnowflake.Mcp

open Foundation

abbrev Text := List Char

/-! ## Request ids -/

/-- The hash of a text id: FNV-1a, with zero remapped. -/
def requestIdHash (value : Text) : UInt64 :=
  let offset : UInt64 := 0xcbf29ce484222325
  let hash := (Utf8.encode value).foldl (fun (hash : UInt64) byte ↦
    (hash ^^^ byte.toUInt64) * 0x100000001b3) offset
  if hash = 0 then offset else hash

/-- The request id of a JSON-RPC id. -/
def fastmcpRequestId : JsonValue → Option UInt64
  | .number (.posInt n) => some n
  | .number (.negInt n) => some n.toUInt64
  | .string s => some (requestIdHash s)
  | .number (.float _) | .null | .bool _ | .array _ | .object _ => none

/-! ## The set -/

/-- The cancelled request ids, and whether stdin was closed. -/
structure RequestCancellations where
  cancelled : List UInt64
  closed : Bool

namespace RequestCancellations

variable (state : RequestCancellations)

/-- Note the request that the parameters of a cancellation name. -/
def note (params : Option JsonValue) : RequestCancellations :=
  match (params.bind (·.get? "requestId".toList)).bind fastmcpRequestId with
  | some id => { state with cancelled := state.cancelled.insert id }
  | none => state

def isCancelled (requestId : UInt64) : Bool := state.closed || requestId ∈ state.cancelled

/-- Forget the cancellation of a finished call. -/
def finish (requestId : UInt64) : RequestCancellations :=
  { state with cancelled := state.cancelled.filter (· ≠ requestId) }

end RequestCancellations

/-- The parameters of a message, if it is a cancellation. -/
def cancellationParams (message : JsonValue) : Option (Option JsonValue) :=
  if (message.get? "method".toList).bind JsonValue.asStr? = some "notifications/cancelled".toList then
    some (message.get? "params".toList)
  else none

/-- Note a line of stdin, which may not be JSON. -/
def RequestCancellations.observe (state : RequestCancellations) (line : Option JsonValue) :
    RequestCancellations :=
  match line.bind cancellationParams with
  | some params => state.note params
  | none => state

/-- The JSON-RPC id that a cancellation names. -/
def cancelledId (message : JsonValue) : Option JsonValue :=
  (cancellationParams message).bind fun params ↦ params.bind (·.get? "requestId".toList)

theorem observe_cancelled (state : RequestCancellations) (message : JsonValue) :
    (state.observe (some message)).cancelled =
      match (cancelledId message).bind fastmcpRequestId with
      | some id => state.cancelled.insert id
      | none => state.cancelled := by
  unfold RequestCancellations.observe cancelledId
  rw [Option.bind_some]
  cases cancellationParams message with
  | none => rfl
  | some params =>
      simp only [RequestCancellations.note, Option.bind_some]
      split <;> rfl

theorem observe_closed (state : RequestCancellations) (message : JsonValue) :
    (state.observe (some message)).closed = state.closed := by
  unfold RequestCancellations.observe RequestCancellations.note
  split
  · split <;> rfl
  · rfl

/-- What the end of a connection notes. -/
theorem note_requestId (state : RequestCancellations) {id : JsonValue} {requestId : UInt64}
    (h : fastmcpRequestId id = some requestId) :
    state.note (some (.object [("requestId".toList, id)])) =
      { state with cancelled := state.cancelled.insert requestId } := by
  rw [RequestCancellations.note, Option.bind_some, JsonValue.get?_cons_self, Option.bind_some, h]

/-! ## Calls -/

/-- Stdin, or the clients that connect over HTTP. -/
inductive Client where
  | stdio
  | http (n : Nat)
deriving DecidableEq, Repr

/-- What a call is; its JSON-RPC id has a request id. -/
structure CallInfo where
  client : Client
  id : JsonValue
  requestId : UInt64
  requestId_eq : fastmcpRequestId id = some requestId

/-- How far a call is.  A call of stdin waits until those before it are done.  The watch
of an HTTP connection is dropped and the call's cancellation forgotten before the answer. -/
inductive Phase where
  | idle
  | received
  | running
  | returned
  | unwatched
  | forgotten
  | answered
deriving DecidableEq, Repr

/-- Received and not yet answered. -/
def Phase.IsOutstanding : Phase → Prop
  | .received | .running | .returned | .unwatched | .forgotten => True
  | .idle | .answered => False

/-- The cancel probe was or will be handed out. -/
def Phase.IsPending : Phase → Prop
  | .received | .running => True
  | .idle | .returned | .unwatched | .forgotten | .answered => False

/-- The set, how far every call is, and whether its connection is watched.  Which calls were
named by a cancellation of their client while they were outstanding, and whose connection was
closed, is remembered for what is promised; no step of the code looks at it. -/
structure World (κ : Type) where
  cancellations : RequestCancellations
  phase : κ → Phase
  watched : κ → Bool
  notified : κ → Prop
  hungUp : κ → Prop

variable {κ : Type}

def World.start (κ : Type) : World κ :=
  ⟨⟨[], false⟩, fun _ ↦ .idle, fun _ ↦ false, fun _ ↦ False, fun _ ↦ False⟩

section Steps

variable [DecidableEq κ] (info : κ → CallInfo)

/-- The cancel probe of a call; its request context is not cancelled by itself. -/
def World.probe (w : World κ) (k : κ) : Bool := w.cancellations.isCancelled (info k).requestId

/-- A call goes on. -/
def World.moveTo (w : World κ) (k : κ) (phase : Phase) : World κ :=
  { w with phase := Function.update w.phase k phase }

/-- Forget the cancellation of a call. -/
def World.finish (w : World κ) (k : κ) : World κ :=
  { w with cancellations := w.cancellations.finish (info k).requestId }

/-- A message of a client is seen. -/
def World.observe (w : World κ) (client : Client) (message : JsonValue) : World κ :=
  { w with
    cancellations := w.cancellations.observe (some message)
    notified := fun k ↦ w.notified k ∨ ((w.phase k).IsOutstanding ∧ (info k).client = client ∧
      cancelledId message = some (info k).id) }

inductive Label (κ : Type) where
  | receive (k : κ)
  | message (client : Client) (message : JsonValue)
  | run (k : κ)
  | refuse (k : κ)
  | finish (k : κ)
  | close (k : κ)
  | hangUp (k : κ)
  | unwatch (k : κ)
  | forget (k : κ)
  | answer (k : κ)

/-- One step, while stdin stays open.  A client uses an id again only after it was answered. -/
inductive Step (w : World κ) : Label κ → World κ → Prop
  | receive {k : κ} (watched : Bool) (h : w.phase k = .idle)
      (hid : ∀ k', (w.phase k').IsOutstanding → (info k').client = (info k).client →
        (info k').id ≠ (info k).id)
      (hwatched : watched = true → (info k).client ≠ .stdio) :
      Step w (.receive k) { w.moveTo k .received with
        watched := Function.update w.watched k watched }
  | message (client : Client) (message : JsonValue) :
      Step w (.message client message) (w.observe info client message)
  | run {k : κ} (h : w.phase k = .received) : Step w (.run k) (w.moveTo k .running)
  | refuse {k : κ} (h : w.phase k = .received) : Step w (.refuse k) (w.moveTo k .returned)
  | finish {k : κ} (h : w.phase k = .running) :
      Step w (.finish k) ((w.finish info k).moveTo k .returned)
  | close {k : κ} (hclient : (info k).client ≠ .stdio) (h : (w.phase k).IsOutstanding) :
      Step w (.close k) { w with hungUp := fun k' ↦ w.hungUp k' ∨ k' = k }
  | hangUp {k : κ} (h : w.hungUp k) (hwatched : w.watched k = true)
      (hphase : w.phase k = .received ∨ w.phase k = .running ∨ w.phase k = .returned) :
      Step w (.hangUp k) { w with
        cancellations := w.cancellations.note (some (.object [("requestId".toList, (info k).id)])) }
  | unwatch {k : κ} (h : w.phase k = .returned) (hwatched : w.watched k = true) :
      Step w (.unwatch k) (w.moveTo k .unwatched)
  | forget {k : κ} (h : w.phase k = .unwatched) :
      Step w (.forget k) ((w.finish info k).moveTo k .forgotten)
  | answer {k : κ} (h : w.phase k = .forgotten ∨ w.phase k = .returned ∧ w.watched k = false) :
      Step w (.answer k) (w.moveTo k .answered)

/-- The runs whose steps all meet a condition. -/
inductive Reaches (P : World κ → Label κ → Prop) : World κ → Prop
  | start : Reaches P (.start κ)
  | step {w w' : World κ} {l : Label κ} (h : Reaches P w) (hstep : Step info w l w') (hP : P w l) :
      Reaches P w'

/-- A cancellation stops its own call and no other: whenever the probe of a running call is
checked, it is true only if the call was named by its client while it was outstanding, or its
connection was closed, and it is true if it was named. -/
def World.CancelsOwn (w : World κ) : Prop :=
  ∀ k, w.phase k = .running → (w.probe info k = true → w.notified k ∨ w.hungUp k) ∧
    (w.notified k → w.probe info k = true)

/-- No stale cancellation meets a new call, and what cancels an outstanding call is meant for
it: a notification comes from its client and names its JSON-RPC id, and a hang-up is at its own
connection. -/
def Meant (w : World κ) : Label κ → Prop
  | .receive k => (info k).requestId ∉ w.cancellations.cancelled
  | .message client message => ∀ k, (w.phase k).IsOutstanding →
      (cancelledId message).bind fastmcpRequestId = some (info k).requestId →
        (info k).client = client ∧ cancelledId message = some (info k).id
  | .hangUp k => ∀ k', (w.phase k').IsOutstanding → (info k').requestId = (info k).requestId → k' = k
  | .run _ | .refuse _ | .finish _ | .close _ | .unwatch _ | .forget _ | .answer _ => True

/-! ## What meant steps keep -/

variable {info} {w w' : World κ} {l : Label κ}

/-- An outstanding call under a cancelled id is the only one, and was named or hung up. -/
structure Inv (info : κ → CallInfo) (w : World κ) : Prop where
  open_ : w.cancellations.closed = false
  distinct : ∀ k k', (w.phase k).IsOutstanding → (w.phase k').IsOutstanding →
    (info k).client = (info k').client → (info k).id = (info k').id → k = k'
  unique : ∀ k k', (w.phase k).IsOutstanding → (w.phase k').IsOutstanding →
    (info k).requestId ∈ w.cancellations.cancelled → (info k').requestId = (info k).requestId → k' = k
  meant : ∀ k, (w.phase k).IsPending → (info k).requestId ∈ w.cancellations.cancelled →
    w.notified k ∨ w.hungUp k
  kept : ∀ k, (w.phase k).IsPending → w.notified k → (info k).requestId ∈ w.cancellations.cancelled
  fresh : ∀ k, w.phase k = .idle → ¬ w.notified k

theorem Phase.IsPending.isOutstanding {p : Phase} (h : p.IsPending) : p.IsOutstanding := by
  cases p with
  | received | running => trivial
  | idle | returned | unwatched | forgotten | answered => exact h.elim

omit [DecidableEq κ] in
theorem inv_start : Inv info (World.start κ) where
  open_ := rfl
  distinct := by simp [World.start, Phase.IsOutstanding]
  unique := by simp [World.start, Phase.IsOutstanding]
  meant := by simp [World.start, Phase.IsPending]
  kept := by simp [World.start, Phase.IsPending]
  fresh := by simp [World.start]

theorem phase_update {phase : κ → Phase} {k k' : κ} {p : Phase} {Q : Phase → Prop}
    (h : Q (Function.update phase k p k')) : (k' = k ∧ Q p) ∨ (k' ≠ k ∧ Q (phase k')) := by
  by_cases heq : k' = k
  · subst heq
    rw [Function.update_self] at h
    exact Or.inl ⟨rfl, h⟩
  · rw [Function.update_of_ne heq] at h
    exact Or.inr ⟨heq, h⟩

/-- A call that is outstanding goes on, and no longer needs its probe if it had none. -/
theorem Inv.moveTo (h : Inv info w) {k : κ} {p : Phase} (hk : (w.phase k).IsOutstanding)
    (hpending : p.IsPending → (w.phase k).IsPending) (hidle : p ≠ .idle) :
    Inv info (w.moveTo k p) := by
  have hout : ∀ k', ((w.moveTo k p).phase k').IsOutstanding → (w.phase k').IsOutstanding := by
    intro k' hk'
    rcases phase_update (Q := Phase.IsOutstanding) hk' with ⟨rfl, -⟩ | ⟨-, hk'⟩
    · exact hk
    · exact hk'
  have hpend : ∀ k', ((w.moveTo k p).phase k').IsPending → (w.phase k').IsPending := by
    intro k' hk'
    rcases phase_update (Q := Phase.IsPending) hk' with ⟨rfl, hp⟩ | ⟨-, hk'⟩
    · exact hpending hp
    · exact hk'
  refine ⟨h.open_, ?_, ?_, ?_, ?_, ?_⟩
  · exact fun k₁ k₂ h₁ h₂ ↦ h.distinct k₁ k₂ (hout k₁ h₁) (hout k₂ h₂)
  · exact fun k₁ k₂ h₁ h₂ ↦ h.unique k₁ k₂ (hout k₁ h₁) (hout k₂ h₂)
  · exact fun k₁ h₁ ↦ h.meant k₁ (hpend k₁ h₁)
  · exact fun k₁ h₁ ↦ h.kept k₁ (hpend k₁ h₁)
  · intro k₁ h₁
    rcases phase_update (Q := (· = .idle)) h₁ with ⟨-, hp⟩ | ⟨-, h₁⟩
    · exact absurd hp hidle
    · exact h.fresh k₁ h₁

omit [DecidableEq κ] in
/-- The cancellation of a call without a probe is forgotten; nobody else's is. -/
theorem Inv.finish (h : Inv info w) {k : κ} (hk : (w.phase k).IsOutstanding)
    (hprobe : ¬ (w.phase k).IsPending) : Inv info (w.finish info k) := by
  have hmem : ∀ id, id ∈ (w.finish info k).cancellations.cancelled →
      id ∈ w.cancellations.cancelled := fun id hid ↦ (List.mem_filter.mp hid).1
  refine ⟨h.open_, h.distinct, ?_, ?_, ?_, h.fresh⟩
  · exact fun k₁ k₂ h₁ h₂ hid ↦ h.unique k₁ k₂ h₁ h₂ (hmem _ hid)
  · exact fun k₁ h₁ hid ↦ h.meant k₁ h₁ (hmem _ hid)
  · intro k₁ h₁ hnotified
    have hid := h.kept k₁ h₁ hnotified
    refine List.mem_filter.mpr ⟨hid, decide_eq_true fun heq ↦ hprobe ?_⟩
    rwa [h.unique k₁ k h₁.isOutstanding hk hid heq.symm]

theorem Inv.receive (h : Inv info w) {k : κ} {watched : Bool} (hidle : w.phase k = .idle)
    (hid : ∀ k', (w.phase k').IsOutstanding → (info k').client = (info k).client →
      (info k').id ≠ (info k).id) (hfresh : (info k).requestId ∉ w.cancellations.cancelled) :
    Inv info { w.moveTo k .received with watched := Function.update w.watched k watched } := by
  have hother {k' : κ} {P : Prop} (hk' : ((w.moveTo k .received).phase k').IsOutstanding)
      (hnew : k' = k → P) (hold : (w.phase k').IsOutstanding → P) : P := by
    rcases phase_update (Q := Phase.IsOutstanding) hk' with ⟨heq, -⟩ | ⟨-, hk'⟩
    · exact hnew heq
    · exact hold hk'
  have hpending {k' : κ} (hk' : ((w.moveTo k .received).phase k').IsPending) :
      k' = k ∨ (w.phase k').IsPending := by
    rcases phase_update (Q := Phase.IsPending) hk' with ⟨heq, -⟩ | ⟨-, hk'⟩
    · exact Or.inl heq
    · exact Or.inr hk'
  refine ⟨h.open_, ?_, ?_, ?_, ?_, ?_⟩
  · intro k₁ k₂ h₁ h₂ hclient hids
    apply hother h₁
    · rintro rfl
      apply hother h₂
      · exact fun heq ↦ heq.symm
      · exact fun h₂ ↦ absurd hids.symm (hid k₂ h₂ hclient.symm)
    · intro hk₁
      apply hother h₂
      · rintro rfl
        exact absurd hids (hid k₁ hk₁ hclient)
      · exact fun hk₂ ↦ h.distinct k₁ k₂ hk₁ hk₂ hclient hids
  · intro k₁ k₂ h₁ h₂ hmem heq
    apply hother h₁
    · rintro rfl
      exact absurd hmem hfresh
    · intro hk₁
      apply hother h₂
      · rintro rfl
        rw [← heq] at hmem
        exact absurd hmem hfresh
      · exact fun hk₂ ↦ h.unique k₁ k₂ hk₁ hk₂ hmem heq
  · intro k₁ h₁ hmem
    rcases hpending h₁ with rfl | h₁
    · exact absurd hmem hfresh
    · exact h.meant k₁ h₁ hmem
  · intro k₁ h₁ hnotified
    rcases hpending h₁ with rfl | h₁
    · exact absurd hnotified (h.fresh k₁ hidle)
    · exact h.kept k₁ h₁ hnotified
  · intro k₁ h₁
    rcases phase_update (Q := (· = .idle)) h₁ with ⟨-, hp⟩ | ⟨-, h₁⟩
    · cases hp
    · exact h.fresh k₁ h₁

omit [DecidableEq κ] in
/-- A cancellation that is meant for the one outstanding call under its id. -/
theorem Inv.cancel (h : Inv info w) (id : UInt64) (hphase : w'.phase = w.phase)
    (hclosed : w'.cancellations.closed = false)
    (hset : ∀ n, n ∈ w'.cancellations.cancelled ↔ n = id ∨ n ∈ w.cancellations.cancelled)
    (hnotified : ∀ k, w'.notified k ↔ w.notified k ∨ ((w.phase k).IsOutstanding ∧ w'.notified k))
    (hhungUp : ∀ k, w.hungUp k → w'.hungUp k)
    (honly : ∀ k k', (w.phase k).IsOutstanding → (w.phase k').IsOutstanding →
      (info k).requestId = id → (info k').requestId = id → k' = k)
    (hnew : ∀ k, (w.phase k).IsOutstanding → w'.notified k → w.notified k ∨ (info k).requestId = id)
    (hmeant : ∀ k, (w.phase k).IsOutstanding → (info k).requestId = id → w'.notified k ∨ w'.hungUp k) :
    Inv info w' := by
  constructor
  · exact hclosed
  · rw [hphase]
    exact h.distinct
  · rw [hphase]
    intro k k' hk hk' hmem heq
    rcases (hset _).mp hmem with hid | hmem
    · exact honly k k' hk hk' hid (heq.trans hid)
    · exact h.unique k k' hk hk' hmem heq
  · rw [hphase]
    intro k hk hmem
    rcases (hset _).mp hmem with hid | hmem
    · exact hmeant k hk.isOutstanding hid
    · exact (h.meant k hk hmem).imp (fun hold ↦ (hnotified k).mpr (Or.inl hold)) (hhungUp k)
  · rw [hphase]
    intro k hk hnot
    rcases hnew k hk.isOutstanding hnot with hold | hid
    · exact (hset _).mpr (Or.inr (h.kept k hk hold))
    · exact (hset _).mpr (Or.inl hid)
  · rw [hphase]
    intro k hk hnot
    rcases (hnotified k).mp hnot with hold | ⟨hout, -⟩
    · exact h.fresh k hk hold
    · rw [hk] at hout
      exact hout

omit [DecidableEq κ] in
/-- A message that is meant for the outstanding calls it cancels. -/
theorem Inv.observe (h : Inv info w) {client : Client} {message : JsonValue}
    (hmeant : Meant info w (.message client message)) : Inv info (w.observe info client message) := by
  have hcancelled := observe_cancelled w.cancellations message
  have hclosed : (w.observe info client message).cancellations.closed = false :=
    (observe_closed w.cancellations message).trans h.open_
  have hnotified (k : κ) : (w.observe info client message).notified k ↔ w.notified k ∨
      ((w.phase k).IsOutstanding ∧ (w.observe info client message).notified k) := by
    simp only [World.observe]
    tauto
  cases hid : (cancelledId message).bind fastmcpRequestId with
  | none =>
      rw [hid] at hcancelled
      have hset : (w.observe info client message).cancellations.cancelled =
        w.cancellations.cancelled := hcancelled
      have hsame : ∀ k, (w.observe info client message).notified k → w.notified k := by
        rintro k (hk | ⟨-, -, hk⟩)
        · exact hk
        · rw [hk, Option.bind_some, (info k).requestId_eq] at hid
          cases hid
      refine ⟨hclosed, h.distinct, ?_, ?_, ?_, fun k hk hnot ↦ h.fresh k hk (hsame k hnot)⟩
      · exact fun k k' hk hk' hmem ↦ h.unique k k' hk hk' (hset ▸ hmem)
      · exact fun k hk hmem ↦ (h.meant k hk (hset ▸ hmem)).imp_left Or.inl
      · exact fun k hk hnot ↦ hset.symm ▸ h.kept k hk (hsame k hnot)
  | some id =>
      rw [hid] at hcancelled
      have hnamed : ∀ k, (w.phase k).IsOutstanding → (info k).requestId = id →
          (info k).client = client ∧ cancelledId message = some (info k).id :=
        fun k hk heq ↦ hmeant k hk (hid.trans (congrArg some heq.symm))
      refine h.cancel id rfl hclosed ?_ hnotified (fun k hk ↦ hk) ?_ ?_ ?_
      · intro n
        show n ∈ (w.cancellations.observe (some message)).cancelled ↔ _
        rw [hcancelled, List.mem_insert_iff]
      · intro k k' hk hk' heq heq'
        obtain ⟨hclient, hname⟩ := hnamed k hk heq
        obtain ⟨hclient', hname'⟩ := hnamed k' hk' heq'
        exact h.distinct k' k hk' hk (hclient'.trans hclient.symm)
          (Option.some.inj (hname'.symm.trans hname))
      · rintro k - (hk | ⟨-, -, hk⟩)
        · exact Or.inl hk
        · rw [hk, Option.bind_some, (info k).requestId_eq] at hid
          exact Or.inr (Option.some.inj hid)
      · exact fun k hk heq ↦ Or.inl (Or.inr ⟨hk, hnamed k hk heq⟩)

omit [DecidableEq κ] in
theorem Inv.hangUp (h : Inv info w) {k : κ} (hk : w.hungUp k)
    (hmeant : Meant info w (.hangUp k)) : Inv info { w with
      cancellations := w.cancellations.note (some (.object [("requestId".toList, (info k).id)])) } := by
  have hnote := note_requestId w.cancellations (info k).requestId_eq
  have honly : ∀ k', (w.phase k').IsOutstanding → (info k').requestId = (info k).requestId → k' = k :=
    hmeant
  rw [hnote]
  refine h.cancel (info k).requestId rfl h.open_ ?_ ?_ (fun k hk ↦ hk) ?_ ?_ ?_
  · exact fun n ↦ List.mem_insert_iff
  · exact fun k' ↦ ⟨Or.inl, fun h ↦ h.elim id And.right⟩
  · exact fun k₁ k₂ h₁ h₂ heq heq' ↦ (honly k₂ h₂ heq').trans (honly k₁ h₁ heq).symm
  · exact fun k' _ hk' ↦ Or.inl hk'
  · intro k' hk' heq
    rw [honly k' hk' heq]
    exact Or.inr hk

theorem Inv.step (h : Inv info w) (hstep : Step info w l w') (hmeant : Meant info w l) :
    Inv info w' := by
  have hout {k : κ} {p : Phase} (hk : w.phase k = p) (hp : p.IsOutstanding) :
      (w.phase k).IsOutstanding := by rwa [hk]
  cases hstep with
  | receive watched hidle hid hwatched => exact h.receive hidle hid hmeant
  | message client message => exact h.observe hmeant
  | run hk => exact h.moveTo (hout hk trivial) (fun _ ↦ by rw [hk]; trivial) (by decide)
  | refuse hk => exact h.moveTo (hout hk trivial) (fun hp ↦ hp.elim) (by decide)
  | @finish k hk =>
      have hmoved : Inv info (w.moveTo k .returned) :=
        h.moveTo (hout hk trivial) (fun hp ↦ hp.elim) (by decide)
      refine hmoved.finish (k := k) ?_ ?_
      · show (Function.update w.phase k .returned k).IsOutstanding
        rw [Function.update_self]
        trivial
      · show ¬ (Function.update w.phase k .returned k).IsPending
        rw [Function.update_self]
        exact id
  | close hclient hk =>
      exact ⟨h.open_, h.distinct, h.unique, fun k hk hmem ↦ (h.meant k hk hmem).imp_right Or.inl,
        h.kept, h.fresh⟩
  | hangUp hk hwatched hphase => exact h.hangUp hk hmeant
  | unwatch hk hwatched => exact h.moveTo (hout hk trivial) (fun hp ↦ hp.elim) (by decide)
  | @forget k hk =>
      have hmoved : Inv info (w.moveTo k .forgotten) :=
        h.moveTo (hout hk trivial) (fun hp ↦ hp.elim) (by decide)
      refine hmoved.finish (k := k) ?_ ?_
      · show (Function.update w.phase k .forgotten k).IsOutstanding
        rw [Function.update_self]
        trivial
      · show ¬ (Function.update w.phase k .forgotten k).IsPending
        rw [Function.update_self]
        exact id
  | answer hk =>
      refine h.moveTo ?_ (fun hp ↦ hp.elim) (by decide)
      rcases hk with hk | ⟨hk, -⟩
      · exact hout hk trivial
      · exact hout hk trivial

/-! ## Runs -/

theorem inv_of_reaches (h : Reaches info (Meant info) w) : Inv info w := by
  induction h with
  | start => exact inv_start
  | step _ hstep hmeant ih => exact ih.step hstep hmeant

omit [DecidableEq κ] in
theorem Inv.cancelsOwn (h : Inv info w) : w.CancelsOwn info := by
  intro k hk
  have hpending : (w.phase k).IsPending := by
    rw [hk]
    trivial
  have hprobe : w.probe info k = true ↔ (info k).requestId ∈ w.cancellations.cancelled := by
    simp [World.probe, RequestCancellations.isCancelled, h.open_]
  rw [hprobe]
  exact ⟨h.meant k hpending, h.kept k hpending⟩

/-- In every run whose steps are all meant, a cancellation stops its own call and no other. -/
theorem cancelsOwn_of_reaches (h : Reaches info (Meant info) w) : w.CancelsOwn info :=
  (inv_of_reaches h).cancelsOwn

end Steps

/-! ## Two clients with one id -/

/-- Calls of two HTTP clients that both use the id 1. -/
def sameId (k : Bool) : CallInfo :=
  ⟨.http (if k then 1 else 0), .number (.posInt 1), 1, rfl⟩

/-- A cancellation of the call under the id 1. -/
def cancelOne : JsonValue := .object [("method".toList, .string "notifications/cancelled".toList),
  ("params".toList, .object [("requestId".toList, .number (.posInt 1))])]

/-- One client cancels its call, and the probe of the other's call is true. -/
theorem not_cancelsOwn : ¬ ∀ w : World Bool, Reaches sameId (fun _ _ ↦ True) w →
    w.CancelsOwn sameId := by
  intro hclaim
  let w₁ : World Bool := { (World.start Bool).moveTo false .received with
    watched := Function.update (World.start Bool).watched false false }
  let w₂ : World Bool := { w₁.moveTo true .received with
    watched := Function.update w₁.watched true false }
  let w₃ : World Bool := w₂.moveTo true .running
  let w₄ : World Bool := w₃.observe sameId (.http 0) cancelOne
  have h₁ : Reaches sameId (fun _ _ ↦ True) w₁ := .step .start
    (.receive (k := false) false rfl (fun k hk ↦ hk.elim) nofun) trivial
  have h₂ : Reaches sameId (fun _ _ ↦ True) w₂ := by
    refine .step h₁ (.receive (k := true) false rfl (fun k hk hclient ↦ ?_) nofun) trivial
    cases k with
    | false => cases hclient
    | true => exact hk.elim
  have h₃ : Reaches sameId (fun _ _ ↦ True) w₃ := .step h₂ (.run (k := true) rfl) trivial
  have h₄ : Reaches sameId (fun _ _ ↦ True) w₄ := .step h₃ (.message (.http 0) cancelOne) trivial
  have hprobe : w₄.probe sameId true = true := by decide +kernel
  rcases (hclaim w₄ h₄ true rfl).1 hprobe with (hnotified | ⟨-, hclient, -⟩) | hhungUp
  · exact hnotified
  · cases hclient
  · exact hhungUp

/-- A client cancels its running call. -/
theorem cancelsOwn_of_reaches_one : ∃ w : World Bool, w.phase false = .running ∧
    w.notified false ∧ w.CancelsOwn sameId := by
  let w₁ : World Bool := { (World.start Bool).moveTo false .received with
    watched := Function.update (World.start Bool).watched false false }
  let w₂ : World Bool := w₁.moveTo false .running
  let w₃ : World Bool := w₂.observe sameId (.http 0) cancelOne
  have h₁ : Reaches sameId (Meant sameId) w₁ := .step .start
    (.receive (k := false) false rfl (fun k hk ↦ hk.elim) nofun) List.not_mem_nil
  have h₂ : Reaches sameId (Meant sameId) w₂ := .step h₁ (.run (k := false) rfl) trivial
  have hname : cancelledId cancelOne = some (sameId false).id := rfl
  have h₃ : Reaches sameId (Meant sameId) w₃ := by
    refine .step h₂ (.message (.http 0) cancelOne) fun k hk _ ↦ ?_
    cases k with
    | false => exact ⟨rfl, hname⟩
    | true => exact hk.elim
  exact ⟨w₃, rfl, Or.inr ⟨trivial, rfl, hname⟩, cancelsOwn_of_reaches h₃⟩

end FrankenSnowflake.Mcp
