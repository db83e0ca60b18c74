import FrankenSnowflake.Cache.JsonLines
import FrankenSnowflake.Cache.Retention
import Mathlib.Logic.Relation

/-!
# Handles that share a directory

Handles take turns; a turn is one read, one append, or one of the two parts of a
rewrite, the temporary file and its rename.  A rename over a log that others
wrote to since the temporary file's author loaded it loses what they wrote.
-/

namespace FrankenSnowflake.Cache

open Foundation

variable (E : Crates)

/-! ## Operations -/

/-- The operations of a handle. -/
inductive Operation where
  | write (t : Table) (r : t.Record)
  | lookup (l : Lookup)
  | compact
  | applyRetention (policy : RetentionPolicy)
  | skippedLines

/-- The requests of an operation. -/
abbrev Requests := Program FileAction FileAction.Reply (CacheResult Unit × FileCache)

def Operation.program : Operation → FileM Unit
  | write t r => Cache.write E t r
  | lookup l => do let _ ← Cache.lookup E l
  | compact => do let _ ← compactUpsertTables E
  | applyRetention policy => do let _ ← Cache.applyRetention E policy
  | skippedLines => do let _ ← Cache.skippedLines E

/-! ## The shared directory -/

/-- What happened to the logs: a record was appended, or keys were evicted. -/
inductive Event where
  | wrote (t : Table) (r : t.Record)
  | evicted (t : Table) (keys : t.Key → Bool)

def Operation.events : Operation → List Event
  | write t r => [.wrote t r]
  | _ => []

/-- The temporary file of a table; it is current while nobody wrote to the log
since its author loaded it. -/
structure Temp (ι : Type) (t : Table) where
  bytes : List UInt8
  evicted : t.Key → Bool
  author : ι
  current : Bool

/-- A handle between operations, before a request, or before its rename. -/
inductive Handle where
  | idle (c : FileCache)
  | busy (op : Operation) (p : Requests)
  | beforeRename (op : Operation) (t : Table) (k : Bool → Requests)

/-- The directory, the handles, and what is told of them: the events, the
operations that returned `Ok`, and whether nobody else wrote to a table since a
handle loaded it. -/
structure World (ι : Type) where
  directory : Directory
  temps : (t : Table) → Option (Temp ι t)
  handles : ι → Handle
  history : List Event
  returned : List Operation
  current : ι → Table → Bool

/-- A directory without temporary files, and handles that were just opened. -/
def World.start (ι : Type) (d : Directory) : World ι :=
  ⟨d, fun _ ↦ none, fun _ ↦ .idle .open, [], [], fun _ _ ↦ false⟩

section Step

variable {ι : Type} [DecidableEq ι]

/-- The log of a table changes, by a handle that keeps or loses track of it. -/
def World.changeLog (w : World ι) (h : ι) (t : Table) (keeps : Bool) (bytes : List UInt8) :
    World ι :=
  { w with
    directory := Function.update w.directory t (some bytes)
    temps := Function.update w.temps t ((w.temps t).map fun temp ↦ { temp with current := false })
    current := fun h' t' ↦ if t' = t then decide (h' = h) && keeps && w.current h' t'
      else w.current h' t' }

/-- The turn of a handle, which begins `op` if it is idle. -/
def World.step (w : World ι) (h : ι) (op : Operation) : World ι :=
  match w.handles h with
  | .idle c => { w with handles := Function.update w.handles h (.busy op (op.program E c)) }
  | .busy op (.done (r, c)) =>
      { w with
        handles := Function.update w.handles h (.idle c)
        returned := if r = .ok () then w.returned ++ [op] else w.returned }
  | .busy op (.ask (.read t) k) =>
      { w with
        handles := Function.update w.handles h (.busy op (k (w.directory t)))
        current := Function.update w.current h (Function.update (w.current h) t true) }
  | .busy op (.ask (.append t bytes) k) =>
      { w.changeLog h t true ((w.directory t).getD [] ++ bytes) with
        handles := Function.update w.handles h (.busy op (k ()))
        history := w.history ++ op.events }
  | .busy op (.ask (.rewrite t bytes evicted) k) =>
      { w with
        handles := Function.update w.handles h (.beforeRename op t k)
        temps := Function.update w.temps t (some ⟨bytes, evicted, h, w.current h t⟩) }
  | .beforeRename op t k =>
      match w.temps t with
      | some temp =>
          { w.changeLog h t (decide (temp.author = h)) temp.bytes with
            temps := Function.update w.temps t none
            handles := Function.update w.handles h (.busy op (k true))
            history := w.history ++ [.evicted t temp.evicted] }
      | none =>
          { w with
            handles := Function.update w.handles h (.busy op (k false))
            current := Function.update w.current h fun _ ↦ false }

/-- Any handle takes the next turn. -/
def Turn (w w' : World ι) : Prop := ∃ h op, w' = w.step E h op

end Step

/-! ## What is lost -/

section Lost

variable {ι : Type} (w : World ι)

/-- A handle that is opened now finds a record. -/
def World.Finds (t : Table) (r : t.Record) : Prop :=
  ∃ c, (ensureTableLoaded E t).run .open w.directory = ((.ok (), c), w.directory) ∧
    (c.inner t).get? (t.key r) = some r

/-- A later upsert of the key, or an eviction by retention. -/
def Gone (t : Table) (r : t.Record) (later : List Event) : Prop :=
  (t.lastWriteWins = true ∧ ∃ r', .wrote t r' ∈ later ∧ t.key r' = t.key r) ∨
    ∃ keys, .evicted t keys ∈ later ∧ keys (t.key r) = true

/-- Every write that returned `Ok` is told of, and every record that was appended
is found, superseded or evicted. -/
structure World.NothingLost : Prop where
  told : ∀ t r, .write t r ∈ w.returned → .wrote t r ∈ w.history
  kept : ∀ t r before later, w.history = before ++ .wrote t r :: later →
    w.Finds E t r ∨ Gone t r later

/-- The next turn of a handle loses nothing: a temporary file is renamed only
over a log that nobody wrote to since its author loaded it, and an append to a
table whose first record of a key counts does not use the key of another record. -/
def World.Fresh (h : ι) : Prop :=
  match w.handles h with
  | .beforeRename _ t _ => ∀ temp, w.temps t = some temp → temp.current = true
  | .busy (.write t r) (.ask (.append ..) _) =>
      t.lastWriteWins = true ∨ ∀ r', w.Finds E t r' → t.key r' = t.key r → r' = r
  | _ => True

end Lost

end FrankenSnowflake.Cache
