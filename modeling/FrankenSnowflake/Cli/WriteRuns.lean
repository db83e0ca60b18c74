import Mathlib.Logic.Function.Basic
import Mathlib.Logic.Relation
import FrankenSnowflake.Cli.ConfirmedWrite

/-!
# Interleaved writes

Invocations of `query write` share the audit log and the SQL API.  They take
their steps in any order, may crash between two of them, and an append may fail or
be cut off.  A confirmed write is submitted under its confirmation's id; once its
consumption was recorded, no later invocation submits under the same token, as long
as the log can be read a second time and no consumption is written behind a torn
line.
-/

namespace FrankenSnowflake.ConfirmedWrite

open Foundation SqlLexer Redact WriteIntent Confirmation
open Http (Text TransportRoute)

/-! ## The audit log -/

inductive StoreBackend where
  | file
  | sqlite
deriving DecidableEq, Repr

/-- What the log holds; the file may end in a torn line. -/
structure AuditLog where
  records : List AuditEventRecord
  torn : Bool

/-- The first record under an event id stays. -/
def insertRecord (records : List AuditEventRecord) (record : AuditEventRecord) :
    List AuditEventRecord :=
  if records.any (·.eventId = record.eventId) then records else record :: records

/-- An append, and whether it succeeds.  Event ids are content addresses: a record
under the id of the event is of the event.  What is appended to a torn line is no line
of its own. -/
inductive Appends (backend : StoreBackend) (log : AuditLog) (event : AuditEvent) :
    Bool → AuditLog → Prop
  | stored (eventId : String) (createdAtMs : Nat) (htorn : log.torn = false)
      (haddress : ∀ record ∈ log.records, record.eventId = eventId → record.event = event) :
      Appends backend log event true ⟨insertRecord log.records ⟨eventId, createdAtMs, event⟩, false⟩
  | glued (htorn : log.torn = true) : Appends backend log event true ⟨log.records, false⟩
  | unreported (eventId : String) (createdAtMs : Nat) (htorn : log.torn = false)
      (haddress : ∀ record ∈ log.records, record.eventId = eventId → record.event = event) :
      Appends backend log event false ⟨insertRecord log.records ⟨eventId, createdAtMs, event⟩, false⟩
  | failed : Appends backend log event false log
  | cut (hfile : backend = .file) : Appends backend log event false ⟨log.records, true⟩

/-- A read through an opened store, which has read `image` before.  The file is loaded
once; the database is queried each time. -/
inductive Reads (backend : StoreBackend) (log : AuditLog) :
    Option (List AuditEventRecord) → Except String (List AuditEventRecord) →
      Option (List AuditEventRecord) → Prop
  | first : Reads backend log none (.ok log.records) (some log.records)
  | firstFails (error : String) : Reads backend log none (.error error) none
  | loaded (image : List AuditEventRecord) (hfile : backend = .file) :
      Reads backend log (some image) (.ok image) (some image)
  | again (image : List AuditEventRecord) (hsqlite : backend = .sqlite) :
      Reads backend log (some image) (.ok log.records) (some log.records)
  | againFails (image : List AuditEventRecord) (error : String) (hsqlite : backend = .sqlite) :
      Reads backend log (some image) (.error error) (some image)

/-- Neither reads nor writes the log. -/
def Action.IsLocal : Action → Prop
  | .auditEvents | .appendAudit _ | .recordReceipt _ => False
  | .openStore | .confirmKey | .clock | .idSource | .requestIdSource | .resolve | .prepare
  | .submit _ | .answer => True

/-- The replies to a request, with what becomes of the log and of the image. -/
inductive Replies (backend : StoreBackend) (log : AuditLog) :
    Option (List AuditEventRecord) → (a : Action) → a.Reply →
      Option (List AuditEventRecord) → AuditLog → Prop
  | read {image image' : Option (List AuditEventRecord)}
      {reply : Except String (List AuditEventRecord)} (h : Reads backend log image reply image') :
      Replies backend log image .auditEvents reply image' log
  | append {image : Option (List AuditEventRecord)} {event : AuditEvent} {ok : Bool}
      {log' : AuditLog} (h : Appends backend log event ok log') :
      Replies backend log image (.appendAudit event) ok image log'
  | receipt {image : Option (List AuditEventRecord)} {kind : String} {ok : Bool} {log' : AuditLog}
      (h : Appends backend log (.other kind) ok log') (reply : Option Text) :
      Replies backend log image (.recordReceipt kind) reply image log'
  | other {image : Option (List AuditEventRecord)} {a : Action} (h : a.IsLocal) (reply : a.Reply) :
      Replies backend log image a reply image log

/-! ## Invocations -/

variable {ι : Type}

/-- What is remembered of a run: an invocation began, submitted, was told that its
consumption is recorded, or was executed by the server. -/
inductive Event (ι : Type) where
  | began (i : ι)
  | submitted (i : ι) (route : TransportRoute)
  | consumed (i : ι)
  | executed (i : ι) (route : TransportRoute)

inductive Status where
  | ready
  | running (rest : WriteM WriteOutcome) (image : Option (List AuditEventRecord))
  | crashed

structure World (ι : Type) where
  log : AuditLog
  executed : List Text
  status : ι → Status
  history : List (Event ι)

def World.start (ι : Type) : World ι := ⟨⟨[], false⟩, [], fun _ ↦ .ready, []⟩

/-- The request id of a submit that is safe to repeat. -/
def requestIdOf : TransportRoute → Option Text
  | .submitWithQuery query =>
      if ("retry".toList, "true".toList) ∈ query then
        (query.find? fun pair ↦ pair.1 = "requestId".toList).map Prod.snd
      else none
  | .submitRetry requestId => some requestId
  | .submit | .poll _ | .partition .. | .cancel _ => none

/-- What is remembered of a step. -/
def eventsOf (i : ι) : (a : Action) → a.Reply → List (Event ι)
  | .submit route, _ => [.submitted i route]
  | .appendAudit (.writeConfirmConsumed _ _), true => [.consumed i]
  | .appendAudit (.writeConfirmConsumed _ _), false => []
  | .appendAudit (.writeDryRun _), _ | .appendAudit (.other _), _ => []
  | .openStore, _ | .auditEvents, _ | .confirmKey, _ | .clock, _ | .idSource, _
  | .requestIdSource, _ | .resolve, _ | .prepare, _ | .recordReceipt _, _ | .answer, _ => []

/-- The steps that the condition of the main result speaks about. -/
inductive Label (ι : Type) where
  | begin (i : ι)
  | act (i : ι) (a : Action) (reply : a.Reply)
  | crash (i : ι)
  | execute (i : ι) (route : TransportRoute)

section Step

variable [DecidableEq ι] (hmac : Hmac) (backend : StoreBackend) (command : ι → WriteCommand)

/-- One step.  The server executes a request id at most once. -/
inductive Step (w : World ι) : Label ι → World ι → Prop
  | begin {i : ι} (h : w.status i = .ready) :
      Step w (.begin i) { w with
        status := Function.update w.status i (.running (queryWrite hmac (command i)) none)
        history := w.history ++ [.began i] }
  | act {i : ι} {a : Action} {k : a.Reply → WriteM WriteOutcome} {reply : a.Reply}
      {image image' : Option (List AuditEventRecord)} {log' : AuditLog}
      (h : w.status i = .running (.ask a k) image)
      (hreply : Replies backend w.log image a reply image' log') :
      Step w (.act i a reply) { w with
        log := log'
        status := Function.update w.status i (.running (k reply) image')
        history := w.history ++ eventsOf i a reply }
  | crash {i : ι} {rest : WriteM WriteOutcome} {image : Option (List AuditEventRecord)}
      (h : w.status i = .running rest image) :
      Step w (.crash i) { w with status := Function.update w.status i .crashed }
  | execute {i : ι} {route : TransportRoute} (h : .submitted i route ∈ w.history)
      (hnew : ∀ id ∈ requestIdOf route, id ∉ w.executed) :
      Step w (.execute i route) { w with
        executed := (requestIdOf route).toList ++ w.executed
        history := w.history ++ [.executed i route] }

/-- The runs whose steps all meet a condition. -/
inductive Reaches (P : World ι → Label ι → Prop) : World ι → Prop
  | start : Reaches P (.start ι)
  | step {w w' : World ι} {l : Label ι} (h : Reaches P w) (hstep : Step hmac backend command w l w')
      (hP : P w l) : Reaches P w'

end Step

/-- A store that has read the log does not fail to read it again, and no consumption is
appended to a torn line. -/
def Safe (w : World ι) : Label ι → Prop
  | .act i .auditEvents (.error _) => ∀ rest image, w.status i = .running rest image → image = none
  | .act _ (.appendAudit (.writeConfirmConsumed _ _)) _ => w.log.torn = false
  | _ => True

/-! ## What is promised -/

/-- The log holds a dry run under an id. -/
def Issued (records : List AuditEventRecord) (id : Text) : Prop :=
  ∃ record ∈ records, ∃ issued, record.event = .writeDryRun issued ∧ issued.confirmId = id

/-- The log holds a consumption of an id. -/
def Consumed (records : List AuditEventRecord) (id : Text) : Prop :=
  ∃ record ∈ records, ∃ receipt, record.event = .writeConfirmConsumed id receipt

/-- A token of an id. -/
def Names (token id : Text) : Prop := ∃ kind, token = confirmPrefix kind ++ id

section Promises

variable (command : ι → WriteCommand) (w : World ι)

/-- A submit under a confirmation carries the confirmation's id as its request id, with
`retry=true`. -/
def World.CarriesId : Prop :=
  ∀ i route token, .submitted i route ∈ w.history → (command i).confirm = some token →
    ∃ id, Names token id ∧ Issued w.log.records id ∧ route = .submitWithQuery
      [("requestId".toList, id), ("retry".toList, "true".toList)]

/-- An invocation that begins after a consumption was recorded does not submit under the
token of that consumption. -/
def World.SingleUse : Prop :=
  w.history.Pairwise fun e e' ↦ ∀ j i, e = .consumed j → e' = .began i →
    (command i).confirm = (command j).confirm → ∀ route, .submitted i route ∉ w.history

/-- The event is an execution under a token. -/
def Event.IsExecution (token : Text) : Event ι → Bool
  | .executed i _ => (command i).confirm = some token
  | .began _ | .submitted _ _ | .consumed _ => false

/-- A statement executes at most once under a token. -/
def World.ExecutesOnce : Prop :=
  ∀ token, w.history.countP (Event.IsExecution command token) ≤ 1

end Promises

end FrankenSnowflake.ConfirmedWrite
