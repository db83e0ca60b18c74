import FrankenSnowflake.Cache.FileStore

/-!
# Three backends of one cache

The tables in memory say what a cache is.  The SQLite backend and the file store,
which may be compacted, closed and reopened at any time, refine them.  A replay of
the file store refines the replay into the tables in memory, where what an
interrupted replay has left makes no difference.
-/

namespace FrankenSnowflake.Cache

open Foundation
open FrankenSqliteCache (Bounded)

/-! ## Backends -/

/-- A backend: its writes, its lookups and its retention. -/
structure Backend where
  State : Type
  empty : State
  write : Target State
  lookup : Lookup → State → CacheResult Answer × State
  applyRetention : RetentionPolicy → State → CacheResult Nat × State

/-- A call of the backend interface. -/
inductive Request where
  | write (t : Table) (r : t.Record)
  | lookup (l : Lookup)
  | applyRetention (policy : RetentionPolicy)

/-- What a call returns. -/
inductive Reply where
  | written (a : CacheResult Unit)
  | answered (a : CacheResult Answer)
  | evicted (a : CacheResult Nat)

namespace Backend

variable (B : Backend)

def reply (s : B.State) : Request → Reply × B.State
  | .write t r => (.written (B.write t r s).1, (B.write t r s).2)
  | .lookup l => (.answered (B.lookup l s).1, (B.lookup l s).2)
  | .applyRetention policy => (.evicted (B.applyRetention policy s).1, (B.applyRetention policy s).2)

/-- The replies to a sequence of calls. -/
def replies : List Request → B.State → List Reply × B.State
  | [], s => ([], s)
  | q :: qs, s => ((B.reply s q).1 :: (replies qs (B.reply s q).2).1, (replies qs (B.reply s q).2).2)

end Backend

section Backends

variable (E : Crates)

def memoryBackend : Backend where
  State := InMemoryCache
  empty := .new
  write := memoryTarget E
  lookup l c := (.ok (l.answer c), c)
  applyRetention policy c := (.ok (c.applyRetentionInMemory policy).2, (c.applyRetentionInMemory policy).1)

/-- The SQLite backend as the target of writes. -/
def sqliteTarget : Target FrankenSqliteCache := fun t r c ↦
  match FrankenSqliteCache.write E t c r with
  | .ok c' => (.ok (), c')
  | .error e => (.error e, c)

def sqliteBackend : Backend where
  State := FrankenSqliteCache
  empty := .new
  write := sqliteTarget E
  lookup l c := (c.answer E l, c)
  applyRetention policy c := c.applyRetention policy

def fileBackend : Backend where
  State := FileStore
  empty := .empty
  write t r := FileStore.perform (write E t r)
  lookup l := FileStore.perform (lookup E l)
  applyRetention policy := FileStore.perform (applyRetention E policy)

end Backends

/-! ## Scripts -/

/-- A step of a script: a call, or one that only a file store takes. -/
inductive ScriptStep where
  | request (q : Request)
  | reopen
  | compact

/-- The calls of a script. -/
def requests (steps : List ScriptStep) : List Request :=
  steps.filterMap fun
    | .request q => some q
    | .reopen | .compact => none

/-- The replies of a file store to the calls of a script. -/
def FileStore.script (E : Crates) : List ScriptStep → FileStore → List Reply × FileStore
  | [], s => ([], s)
  | .request q :: steps, s =>
      (((fileBackend E).reply s q).1 :: (script E steps ((fileBackend E).reply s q).2).1,
        (script E steps ((fileBackend E).reply s q).2).2)
  | .reopen :: steps, s => script E steps s.reopen
  | .compact :: steps, s => script E steps (perform (compactUpsertTables E) s).2

/-- Every record that is written fits into a row. -/
def Request.Fits : Request → Prop
  | write t r => Bounded t r
  | lookup _ | applyRetention _ => True

/-! ## Refinement -/

/-- A backend in step with the tables in memory. -/
structure Refines (E : Crates) (B : Backend) where
  Rel : InMemoryCache → B.State → Prop
  empty : Rel .new B.empty
  write : ∀ {m s t r}, Rel m s → Bounded t r →
    (B.write t r s).1 = (memoryTarget E t r m).1 ∧ Rel (memoryTarget E t r m).2 (B.write t r s).2
  lookup : ∀ {m s} (l : Lookup), Rel m s →
    (B.lookup l s).1 = .ok (l.answer m) ∧ Rel m (B.lookup l s).2
  applyRetention : ∀ {m s} (policy : RetentionPolicy), Rel m s →
    (B.applyRetention policy s).1 = .ok (m.applyRetentionInMemory policy).2 ∧
      Rel (m.applyRetentionInMemory policy).1 (B.applyRetention policy s).2

variable {E : Crates}

theorem memoryTarget_ok {m m' : InMemoryCache} {t : Table} {r : t.Record}
    (h : m.write E t r = .ok m') : memoryTarget E t r m = (.ok (), m') := by
  rw [memoryTarget, h]

theorem memoryTarget_error {m : InMemoryCache} {t : Table} {r : t.Record} {e : CacheError}
    (h : m.write E t r = .error e) : memoryTarget E t r m = (.error e, m) := by
  rw [memoryTarget, h]

theorem sqliteTarget_ok {db db' : FrankenSqliteCache} {t : Table} {r : t.Record}
    (h : FrankenSqliteCache.write E t db r = .ok db') : sqliteTarget E t r db = (.ok (), db') := by
  rw [sqliteTarget, h]

theorem sqliteTarget_error {db : FrankenSqliteCache} {t : Table} {r : t.Record} {e : CacheError}
    (h : FrankenSqliteCache.write E t db r = .error e) : sqliteTarget E t r db = (.error e, db) := by
  rw [sqliteTarget, h]

def memoryRefines : Refines E (memoryBackend E) where
  Rel m s := m = s
  empty := rfl
  write := by
    rintro m s t r rfl -
    exact ⟨rfl, rfl⟩
  lookup := by
    rintro m s l rfl
    exact ⟨rfl, rfl⟩
  applyRetention := by
    rintro m s policy rfl
    exact ⟨rfl, rfl⟩

def sqliteRefines : Refines E (sqliteBackend E) where
  Rel := FrankenSqliteCache.Simulates E
  empty := FrankenSqliteCache.simulates_new
  write := by
    intro m s t r h hb
    rcases h.write hb with ⟨e, hm, hs⟩ | ⟨m', s', hm, hs, h'⟩
    · rw [memoryTarget_error hm]
      exact ⟨congrArg Prod.fst (sqliteTarget_error hs), (congrArg Prod.snd (sqliteTarget_error hs)) ▸ h⟩
    · rw [memoryTarget_ok hm]
      exact ⟨congrArg Prod.fst (sqliteTarget_ok hs), (congrArg Prod.snd (sqliteTarget_ok hs)) ▸ h'⟩
  lookup := fun l h ↦ ⟨h.answer l, h⟩
  applyRetention := by
    intro m s policy h
    obtain ⟨s', hs, h'⟩ := h.applyRetention policy
    exact ⟨congrArg Prod.fst hs, (congrArg Prod.snd hs) ▸ h'⟩

def fileRefines (hE : E.Lawful) : Refines E (fileBackend E) where
  Rel := FileStore.Holds E
  empty := FileStore.holds_empty
  write := by
    intro m s t r h hb
    rcases h.write hE hb with ⟨e, s', hm, hs, h'⟩ | ⟨m', s', hm, hs, h'⟩
    · rw [memoryTarget_error hm]
      exact ⟨congrArg Prod.fst hs, (congrArg Prod.snd hs) ▸ h'⟩
    · rw [memoryTarget_ok hm]
      exact ⟨congrArg Prod.fst hs, (congrArg Prod.snd hs) ▸ h'⟩
  lookup := by
    intro m s l h
    obtain ⟨s', hs, h'⟩ := h.lookup l
    exact ⟨congrArg Prod.fst hs, (congrArg Prod.snd hs) ▸ h'⟩
  applyRetention := by
    intro m s policy h
    obtain ⟨s', hs, h'⟩ := h.applyRetention hE policy
    exact ⟨congrArg Prod.fst hs, (congrArg Prod.snd hs) ▸ h'⟩

section Runs

variable {B : Backend} (R : Refines E B)

theorem Refines.reply {m : InMemoryCache} {s : B.State} (h : R.Rel m s) {q : Request} (hq : q.Fits) :
    (B.reply s q).1 = ((memoryBackend E).reply m q).1 ∧
      R.Rel ((memoryBackend E).reply m q).2 (B.reply s q).2 := by
  cases q with
  | write t r => exact (R.write h hq).imp (congrArg Reply.written) id
  | lookup l => exact (R.lookup l h).imp (congrArg Reply.answered) id
  | applyRetention policy => exact (R.applyRetention policy h).imp (congrArg Reply.evicted) id

/-- A backend that refines the tables in memory replies as they do. -/
theorem Refines.replies {qs : List Request} (hqs : ∀ q ∈ qs, q.Fits) {m : InMemoryCache}
    {s : B.State} (h : R.Rel m s) :
    (B.replies qs s).1 = ((memoryBackend E).replies qs m).1 ∧
      R.Rel ((memoryBackend E).replies qs m).2 (B.replies qs s).2 := by
  induction qs generalizing m s with
  | nil => exact ⟨rfl, h⟩
  | cons q qs ih =>
      obtain ⟨hq, hqs⟩ := List.forall_mem_cons.mp hqs
      obtain ⟨hreply, hrel⟩ := R.reply h hq
      obtain ⟨hreplies, hrel⟩ := ih hqs hrel
      exact ⟨congrArg₂ List.cons hreply hreplies, hrel⟩

end Runs

/-- A file store replies as the tables in memory, which compaction and reopening
do not touch. -/
theorem FileStore.Holds.script (hE : E.Lawful) {steps : List ScriptStep}
    (hsteps : ∀ q, .request q ∈ steps → q.Fits) {m : InMemoryCache} {s : FileStore}
    (h : Holds E m s) :
    (FileStore.script E steps s).1 = ((memoryBackend E).replies (requests steps) m).1 ∧
      Holds E ((memoryBackend E).replies (requests steps) m).2 (FileStore.script E steps s).2 := by
  induction steps generalizing m s with
  | nil => exact ⟨rfl, h⟩
  | cons step steps ih =>
      have hsteps' : ∀ q, .request q ∈ steps → q.Fits :=
        fun q hq ↦ hsteps q (List.mem_cons_of_mem _ hq)
      cases step with
      | request q =>
          obtain ⟨hreply, hrel⟩ := (fileRefines hE).reply h (hsteps q List.mem_cons_self)
          obtain ⟨hreplies, hrel⟩ := ih hsteps' hrel
          exact ⟨congrArg₂ List.cons hreply hreplies, hrel⟩
      | reopen => exact ih hsteps' h.reopen
      | compact =>
          obtain ⟨report, s', hs, h'⟩ := h.compactUpsertTables hE
          exact ih hsteps' ((congrArg Prod.snd hs) ▸ h')

end FrankenSnowflake.Cache
