import FrankenSnowflake.Foundation.Directory
import Mathlib.Data.List.Infix

/-!
# Export files

`open_artifact`, `ArtifactFile` and `write_artifact`, one call of the file system
after another, and runs of any number of exports in one process.
-/

namespace FrankenSnowflake.ExportPath

open Foundation

/-! ## Targets -/

/-- A file name in a directory; both are text, as `out` is. -/
structure Path where
  parent : List Char
  fileName : List Char
deriving DecidableEq, Repr

/-- A validated export destination. -/
structure ExportTarget where
  path : Path
  overwrite : Bool
deriving DecidableEq, Repr

/-- The temporary file beside a target. -/
def tempPath (pid : Nat) (path : Path) : Path :=
  { path with
    fileName := '.' :: path.fileName ++ ".fsnow-tmp-".toList ++ Nat.toDigits 10 pid }

theorem tempPath_injective (pid : Nat) : Function.Injective (tempPath pid) := by
  rintro ⟨parent, fileName⟩ ⟨parent', fileName'⟩ h
  simpa [tempPath] using h

theorem tempPath_ne (pid : Nat) (path : Path) : tempPath pid path ≠ path := by
  intro h
  have hlength := congrArg (fun p ↦ p.fileName.length) h
  simp only [tempPath, List.length_append, List.length_cons] at hlength
  omega

/-- An export: rows that stream into an `ArtifactFile`, or all bytes at once by
`write_artifact`. -/
structure Job where
  target : ExportTarget
  whole : Option (List UInt8)
deriving DecidableEq, Repr

namespace Job

def path (job : Job) : Path := job.target.path

def Streams (job : Job) : Prop := job.whole = none

/-- Reserves its target before it makes its temporary file. -/
def Reserves (job : Job) : Prop := job.Streams ∧ job.target.overwrite = false

/-- Writes to a temporary file. -/
def UsesTemp (job : Job) : Prop := job.Streams ∨ job.target.overwrite = true

instance : DecidablePred Streams := fun job ↦ inferInstanceAs (Decidable (job.whole = none))
instance : DecidablePred Reserves := fun _ ↦ inferInstanceAs (Decidable (_ ∧ _))
instance : DecidablePred UsesTemp := fun _ ↦ inferInstanceAs (Decidable (_ ∨ _))

def temp (pid : Nat) (job : Job) : Path := tempPath pid job.path

/-- The file that the bytes are written to. -/
def file (pid : Nat) (job : Job) : Path := if job.UsesTemp then job.temp pid else job.path

theorem Reserves.usesTemp {job : Job} (h : job.Reserves) : job.UsesTemp := Or.inl h.1

theorem temp_ne_path (pid : Nat) (job : Job) : job.temp pid ≠ job.path := tempPath_ne pid job.path

theorem path_eq_of_temp_eq {pid : Nat} {job job' : Job} (h : job.temp pid = job'.temp pid) :
    job.path = job'.path := tempPath_injective pid h

end Job

/-! ## One export -/

/-- A file that was there before, or the one that an export made: the empty reservation of its
target, or the one that its bytes are written to. -/
inductive File (κ : Type) where
  | old (path : Path)
  | reserved (k : κ)
  | own (k : κ)
deriving DecidableEq

def File.creator {κ : Type} : File κ → Option κ
  | .old _ => none
  | .reserved k | .own k => some k

/-- How far an export is, with the bytes given to it so far.  An `opening` export has reserved
its target, a `flushed` one has still to rename its temporary file, and a `renamed` one to be
dropped; `dropping` and `releasing` ones have failed and have still to remove their temporary
file and their reservation. -/
inductive Phase where
  | idle
  | opening
  | writing (given : List UInt8)
  | flushed (given : List UInt8)
  | renamed (given : List UInt8)
  | dropping
  | releasing
  | succeeded (given : List UInt8)
  | failed
deriving DecidableEq, Repr

namespace Phase

def IsOpen : Phase → Prop
  | .opening | .writing _ | .flushed _ | .renamed _ | .dropping | .releasing => True
  | .idle | .succeeded _ | .failed => False

/-- The bytes of an export whose file is its target's. -/
def committed : Phase → Option (List UInt8)
  | .renamed given | .succeeded given => some given
  | .idle | .opening | .writing _ | .flushed _ | .dropping | .releasing | .failed => none

end Phase

inductive Action where
  | reserve
  | refuse
  | openTemp
  | openTempFails
  | createTemp
  | createTempFails
  | chunk (chunk : List UInt8)
  | progress
  | chunkFails (chunk : List UInt8)
  | drop
  | flush
  | flushFails
  | create
  | write
  | writeFails
  | rename
  | renameFails
  | removeTemp
  | removeTempFails
  | release
  | releaseFails
  | dropRenamed
  | dropRenamedFails
deriving DecidableEq, Repr

section Steps

variable {κ : Type} [DecidableEq κ] (pid : Nat) (job : Job) (k : κ)

/-- After its temporary file was renamed, an `ArtifactFile` is dropped. -/
def Job.afterRename (given : List UInt8) : Phase :=
  if job.Streams then .renamed given else .succeeded given

/-- After its temporary file was removed, a reserved target is. -/
def Job.afterRemove : Phase := if job.Reserves then .releasing else .failed

/-- After all bytes were written, a temporary file is renamed. -/
def Job.afterWrite (given : List UInt8) : Phase :=
  if job.target.overwrite then .flushed given else .succeeded given

/-- One call of the file system, any of which may fail.  What was given to a file that is not
flushed may be buffered, and a call that fails may have written a part of it. -/
inductive Act (d : Directory Path (File κ)) : Phase → Action → Directory Path (File κ) → Phase → Prop
  | reserve (hjob : job.Reserves) (hfree : d.entry job.path = none) :
      Act d .idle .reserve (d.create job.path (.reserved k)) .opening
  | refuse (hjob : ¬ (job.Streams ∧ job.target.overwrite = true)) : Act d .idle .refuse d .failed
  | openTemp (hjob : job.Streams ∧ job.target.overwrite = true) (hfree : d.entry (job.temp pid) = none) :
      Act d .idle .openTemp (d.create (job.temp pid) (.own k)) (.writing [])
  | openTempFails (hjob : job.Streams ∧ job.target.overwrite = true) : Act d .idle .openTempFails d .dropping
  | createTemp (hfree : d.entry (job.temp pid) = none) :
      Act d .opening .createTemp (d.create (job.temp pid) (.own k)) (.writing [])
  | createTempFails : Act d .opening .createTempFails d .dropping
  | chunk {given chunk : List UInt8} (hjob : job.Streams) :
      Act d (.writing given) (.chunk chunk) d (.writing (given ++ chunk))
  | progress {given bytes : List UInt8} (hold : d.bytes (.own k) <+: bytes) (hnew : bytes <+: given) :
      Act d (.writing given) .progress (d.write (.own k) bytes) (.writing given)
  | chunkFails {given chunk bytes : List UInt8} (hjob : job.Streams)
      (hold : d.bytes (.own k) <+: bytes) (hnew : bytes <+: given ++ chunk) :
      Act d (.writing given) (.chunkFails chunk) (d.write (.own k) bytes) .dropping
  | drop {given bytes : List UInt8} (hjob : job.Streams)
      (hold : d.bytes (.own k) <+: bytes) (hnew : bytes <+: given) :
      Act d (.writing given) .drop (d.write (.own k) bytes) .dropping
  | flush {given : List UInt8} (hjob : job.Streams) :
      Act d (.writing given) .flush (d.write (.own k) given) (.flushed given)
  | flushFails {given bytes : List UInt8} (hjob : job.Streams)
      (hold : d.bytes (.own k) <+: bytes) (hnew : bytes <+: given) :
      Act d (.writing given) .flushFails (d.write (.own k) bytes) .dropping
  | create {given : List UInt8} (hjob : job.whole = some given)
      (hfree : d.entry (job.file pid) = none) :
      Act d .idle .create (d.create (job.file pid) (.own k)) (.writing given)
  | write {given : List UInt8} (hjob : ¬ job.Streams) :
      Act d (.writing given) .write (d.write (.own k) given) (job.afterWrite given)
  | writeFails {given bytes : List UInt8} (hjob : ¬ job.Streams)
      (hold : d.bytes (.own k) <+: bytes) (hnew : bytes <+: given) :
      Act d (.writing given) .writeFails (d.write (.own k) bytes) .failed
  | rename {given : List UInt8} (hfile : d.entry (job.temp pid) ≠ none) :
      Act d (.flushed given) .rename (d.rename (job.temp pid) job.path) (job.afterRename given)
  | renameFails {given : List UInt8} : Act d (.flushed given) .renameFails d .dropping
  | removeTemp : Act d .dropping .removeTemp (d.remove (job.temp pid)) job.afterRemove
  | removeTempFails (hfile : d.entry (job.temp pid) ≠ none) :
      Act d .dropping .removeTempFails d job.afterRemove
  | release : Act d .releasing .release (d.remove job.path) .failed
  | releaseFails (hfile : d.entry job.path ≠ none) : Act d .releasing .releaseFails d .failed
  | dropRenamed {given : List UInt8} :
      Act d (.renamed given) .dropRenamed (d.remove (job.temp pid)) (.succeeded given)
  | dropRenamedFails {given : List UInt8} (hfile : d.entry (job.temp pid) ≠ none) :
      Act d (.renamed given) .dropRenamedFails d (.succeeded given)

end Steps

/-! ## Any number of exports -/

/-- The directory and how far every export is. -/
structure World (κ : Type) where
  disk : Directory Path (File κ)
  phase : κ → Phase

section Runs

variable {κ : Type} [DecidableEq κ] (pid : Nat) (info : κ → Job)
  (existing : Path → Option (List UInt8))

omit [DecidableEq κ] in
/-- The files that exist before the first export. -/
def World.start : World κ :=
  ⟨⟨fun p ↦ (existing p).map fun _ ↦ .old p, fun
    | .old p => (existing p).getD []
    | .reserved _ | .own _ => []⟩, fun _ ↦ .idle⟩

/-- A step of one export. -/
inductive Step (w : World κ) (k : κ) (action : Action) : World κ → Prop
  | act {d : Directory Path (File κ)} {phase : Phase}
      (h : Act pid (info k) k w.disk (w.phase k) action d phase) :
      Step w k action ⟨d, Function.update w.phase k phase⟩

/-- The runs whose steps all meet a condition. -/
inductive Reaches (P : World κ → κ → Action → Prop) : World κ → Prop
  | start : Reaches P (.start existing)
  | step {w w' : World κ} {k : κ} {action : Action} (h : Reaches P w)
      (hstep : Step pid info w k action w') (hP : P w k action) : Reaches P w'

/-! ## What is promised -/

omit [DecidableEq κ] in
/-- A target that no export is open for holds what it held before, or exactly the bytes of an
export to it that succeeded. -/
def World.AtRest (w : World κ) : Prop :=
  ∀ p, (∃ k, (info k).path = p) → (∀ k, (info k).path = p → ¬ (w.phase k).IsOpen) →
    w.disk.contents p = existing p ∨
      ∃ k given, (info k).path = p ∧ w.phase k = .succeeded given ∧ w.disk.contents p = some given

omit [DecidableEq κ] in
/-- An export that failed has left no file behind. -/
def World.LeavesNothing (w : World κ) : Prop :=
  ∀ k, w.phase k = .failed → ∀ p f, w.disk.entry p = some f → f.creator ≠ some k

omit [DecidableEq κ] in
/-- An export that commits puts exactly its own bytes onto its target. -/
def PutsOwn (w : World κ) (k : κ) (w' : World κ) : Prop :=
  ∀ given, (w.phase k).committed = none → (w'.phase k).committed = some given →
    w'.disk.contents (info k).path = some given

omit [DecidableEq κ] in
/-- Nothing but the replacement of its target removes or changes a file of another export. -/
def SparesOthers (w : World κ) (k : κ) (action : Action) (w' : World κ) : Prop :=
  action ≠ .rename → ∀ p f k', w.disk.entry p = some f → f.creator = some k' → k' ≠ k →
    w'.disk.entry p = some f ∧ w'.disk.bytes f = w.disk.bytes f

/-- Export files are all or nothing, as far as steps meet a condition. -/
structure World.AllOrNothing (P : World κ → κ → Action → Prop) (w : World κ) : Prop where
  atRest : w.AtRest info existing
  leavesNothing : w.LeavesNothing
  putsOwn : ∀ k action w', Step pid info w k action w' → P w k action → PutsOwn info w k w'
  sparesOthers : ∀ k action w', Step pid info w k action w' → P w k action →
    SparesOthers w k action w'

omit [DecidableEq κ] in
/-- No target bears the name of a temporary file. -/
def Uncrossed : Prop := ∀ k k', (info k).path ≠ (info k').temp pid

omit [DecidableEq κ] in
/-- An export starts while no other to its target is open, `write_artifact` writes and syncs
all bytes, and what is cleaned up can be removed. -/
def Orderly (w : World κ) (k : κ) : Action → Prop
  | .reserve | .openTemp | .openTempFails | .create =>
      ∀ k', (w.phase k').IsOpen → (info k').path ≠ (info k).path
  | .writeFails | .removeTempFails | .releaseFails => False
  | .refuse | .createTemp | .createTempFails | .chunk _ | .progress | .chunkFails _ | .drop | .flush
  | .flushFails | .write | .rename | .renameFails | .removeTemp | .release | .dropRenamed
  | .dropRenamedFails => True

end Runs

end FrankenSnowflake.ExportPath
