import FrankenSnowflake.Cache.SharingInvariant
import FrankenSnowflake.Cache.SqliteRetention

/-!
# A file store that is used alone

Between operations the logs of the directory hold the tables, and the handle has
each table that it loaded.  Every operation keeps it so, and a handle that is
opened anew finds the same tables.
-/

namespace FrankenSnowflake.Cache

open Foundation
open FrankenSqliteCache (Bounded)

variable {E : Crates}

/-! ## Logs of records -/

/-- A log of valid lines of records that fit into a row. -/
def HoldsRecords (E : Crates) (t : Table) (rs : List t.Record) (log : Option (List UInt8)) : Prop :=
  (∀ r ∈ rs, Bounded t r) ∧ ∃ ls, ValidLines E t ls rs ∧
    (log = some (Utf8.encode (unlines ls)) ∨ log = none ∧ rs = [])

theorem HoldsRecords.isLog {t : Table} {rs : List t.Record} {log : Option (List UInt8)}
    (h : HoldsRecords E t rs log) : IsLog E t (recordsOf t rs) log := by
  obtain ⟨-, ls, hlines, hlog⟩ := h
  exact ⟨ls, rs, hlines, rfl, hlog⟩

theorem HoldsRecords.append (hE : E.Lawful) {t : Table} {rs : List t.Record}
    {log : Option (List UInt8)} (h : HoldsRecords E t rs log) {r : t.Record}
    (hr : t.check E r = .ok ()) (hb : Bounded t r) :
    HoldsRecords E t (rs ++ [r]) (some (log.getD [] ++ Utf8.encode (lineText E t r))) := by
  obtain ⟨hbounded, ls, hlines, hlog⟩ := h
  have hline := validLine_toString hE hr
  have hone : lineText E t r = unlines [E.toString t ⟨lineVersion, r⟩] := by
    rw [unlines_cons, unlines_nil]
    rfl
  refine ⟨List.forall_mem_append.mpr ⟨hbounded, List.forall_mem_singleton.mpr hb⟩, ?_⟩
  rcases hlog with rfl | ⟨rfl, rfl⟩
  · refine ⟨ls ++ [_], List.rel_append hlines (.cons hline .nil), Or.inl ?_⟩
    rw [hone, Option.getD_some, ← Utf8.encode_append, unlines_append]
  · exact ⟨[_], .cons hline .nil, Or.inl (by rw [hone]; rfl)⟩

/-- The records of a log hold what is in a table. -/
def Stores (E : Crates) (t : Table) (m : SortedMap t.Key t.Record) (log : Option (List UInt8)) : Prop :=
  ∃ rs, HoldsRecords E t rs log ∧ m = recordsOf t rs

theorem Stores.isLog {t : Table} {m : SortedMap t.Key t.Record} {log : Option (List UInt8)}
    (h : Stores E t m log) : IsLog E t m log := by
  obtain ⟨rs, hrs, rfl⟩ := h
  exact hrs.isLog

theorem Stores.bounded {t : Table} {m : SortedMap t.Key t.Record} {log : Option (List UInt8)}
    (h : Stores E t m log) : ∀ r ∈ m.values, Bounded t r := by
  obtain ⟨rs, ⟨hbounded, -⟩, rfl⟩ := h
  intro r hr
  obtain ⟨k, hk⟩ := SortedMap.mem_values.mp hr
  rw [recordsOf, get?_foldl_put, SortedMap.get?_empty, Option.or_none, Option.none_or] at hk
  split_ifs at hk
  · exact hbounded r (List.mem_reverse.mp (List.mem_of_find?_eq_some hk))
  · exact hbounded r (List.mem_of_find?_eq_some hk)

theorem Stores.append (hE : E.Lawful) {t : Table} {m : SortedMap t.Key t.Record}
    {log : Option (List UInt8)} (h : Stores E t m log) {r : t.Record} (hr : t.check E r = .ok ())
    (hb : Bounded t r) : Stores E t (t.put m r) (some (log.getD [] ++ Utf8.encode (lineText E t r))) := by
  obtain ⟨rs, hrs, rfl⟩ := h
  refine ⟨rs ++ [r], hrs.append hE hr hb, ?_⟩
  rw [recordsOf_append]
  rfl

/-- Canonical lines hold their table. -/
theorem stores_canonicalBytes (hE : E.Lawful) {t : Table} {m : SortedMap t.Key t.Record}
    (hm : Keyed t m) (hc : Checked E t m) (hb : ∀ r ∈ m.values, Bounded t r) :
    Stores E t m (some (canonicalBytes E t m)) :=
  ⟨m.values, ⟨hb, _, validLines_toString hE hc, Or.inl (by rw [canonicalBytes, flatMap_lineText])⟩,
    (recordsOf_values hm).symm⟩

theorem Stores.canonical (hE : E.Lawful) {t : Table} {m : SortedMap t.Key t.Record}
    {log : Option (List UInt8)} (h : Stores E t m log) :
    Stores E t m (some (canonicalBytes E t m)) :=
  stores_canonicalBytes hE h.isLog.keyed h.isLog.checked h.bounded

/-- Canonical lines without the records that were evicted. -/
theorem Stores.canonical_without (hE : E.Lawful) {t : Table} {m : SortedMap t.Key t.Record}
    {log : Option (List UInt8)} (h : Stores E t m log) (evicted : t.Key → Bool) :
    Stores E t (without m evicted) (some (canonicalBytes E t (without m evicted))) := by
  refine stores_canonicalBytes hE (h.isLog.keyed.without _) (h.isLog.checked.without _) ?_
  intro r hr
  obtain ⟨k, hk⟩ := SortedMap.mem_values.mp hr
  rw [get?_without] at hk
  split_ifs at hk
  exact h.bounded r (SortedMap.mem_values.mpr ⟨k, hk⟩)

/-! ## Stores -/

/-- A handle and the directory that it works on. -/
structure FileStore where
  handle : FileCache
  logs : Directory

namespace FileStore

/-- A store without logs. -/
def empty : FileStore := ⟨.open, fun _ ↦ none⟩

/-- An operation of the handle. -/
def perform {α : Type} (x : FileM α) (s : FileStore) : CacheResult α × FileStore :=
  ((x.run s.handle s.logs).1.1, ⟨(x.run s.handle s.logs).1.2, (x.run s.handle s.logs).2⟩)

/-- The handle is closed and another one is opened. -/
def reopen (s : FileStore) : FileStore := ⟨.open, s.logs⟩

theorem perform_bind {α β : Type} (x : FileM α) (f : α → FileM β) (s : FileStore) :
    perform (x >>= f) s = match perform x s with
      | (.ok a, s') => perform (f a) s'
      | (.error e, s') => (.error e, s') := by
  unfold perform
  rw [FileM.run_bind]
  rcases x.run s.handle s.logs with ⟨⟨a, c⟩, d⟩
  cases a <;> rfl

theorem perform_bind_ok {α β : Type} {x : FileM α} {f : α → FileM β} {s s' : FileStore} {a : α}
    (h : perform x s = (.ok a, s')) : perform (x >>= f) s = perform (f a) s' := by
  rw [perform_bind, h]

theorem perform_of_run {α : Type} {x : FileM α} {s : FileStore} {a : CacheResult α} {c : FileCache}
    {d : Directory} (h : x.run s.handle s.logs = ((a, c), d)) : perform x s = (a, ⟨c, d⟩) := by
  rw [perform, h]

/-- The store holds the tables. -/
structure Holds (E : Crates) (m : InMemoryCache) (s : FileStore) : Prop where
  logs : ∀ t, Stores E t (m t) (s.logs t)
  loaded : ∀ t, s.handle.loadedTables t = true → s.handle.inner t = m t
  isLazy : s.handle.Lazy

variable {m : InMemoryCache} {s : FileStore}

theorem holds_empty : Holds E .new empty where
  logs _ := ⟨[], ⟨by simp, [], .nil, Or.inr ⟨rfl, rfl⟩⟩, rfl⟩
  loaded _ h := by cases h
  isLazy _ _ := rfl

theorem Holds.reopen (h : Holds E m s) : Holds E m s.reopen where
  logs := h.logs
  loaded _ h := by cases h
  isLazy _ _ := rfl

theorem Holds.keyed (h : Holds E m s) (t : Table) : Keyed t (m t) := (h.logs t).isLog.keyed

/-! ## Loading -/

/-- A table is loaded, and the others stay as they are. -/
theorem Holds.ensureTableLoaded (h : Holds E m s) (t : Table) :
    ∃ s', perform (Cache.ensureTableLoaded E t) s = (.ok (), s') ∧ Holds E m s' ∧
      s'.handle.loadedTables = Function.update s.handle.loadedTables t true := by
  cases hloaded : s.handle.loadedTables t with
  | true =>
      refine ⟨s, perform_of_run (run_ensureTableLoaded_loaded hloaded s.logs), h, ?_⟩
      rw [← hloaded, Function.update_eq_self]
  | false =>
      obtain ⟨count, hrun⟩ :=
        run_ensureTableLoaded_isLog hloaded (h.isLazy t hloaded) (h.logs t).isLog
      refine ⟨_, perform_of_run hrun, ⟨h.logs, fun t' ht' ↦ ?_, fun t' ht' ↦ ?_⟩, rfl⟩
      · by_cases htt : t' = t
        · subst htt
          exact Function.update_self _ _ _
        · simp only [FileCache.load, Function.update_of_ne htt] at ht' ⊢
          exact h.loaded t' ht'
      · have htt : t' ≠ t := by
          rintro rfl
          simp [FileCache.load] at ht'
        simp only [FileCache.load, Function.update_of_ne htt] at ht' ⊢
        exact h.isLazy t' ht'

/-- An operation that loads its table first. -/
theorem perform_loaded_bind {α : Type} {t : Table} {f : Unit → FileM α} {s' : FileStore}
    (hperform : perform (Cache.ensureTableLoaded E t) s = (.ok (), s'))
    (hloaded : s'.handle.loadedTables t = true) :
    perform (Cache.ensureTableLoaded E t >>= f) s = perform (Cache.ensureTableLoaded E t >>= f) s' := by
  have hperform' := perform_of_run (run_ensureTableLoaded_loaded (E := E) hloaded s'.logs)
  rw [perform_bind_ok hperform, perform_bind_ok hperform']

/-! ## Writing -/

/-- The canonical lines of a table do not change it. -/
theorem Holds.compacted (hE : E.Lawful) (h : Holds E m s) (t : Table) (counts : Table → Nat) :
    Holds E m ⟨{ s.handle with tableLineCounts := counts },
      Function.update s.logs t (some (canonicalBytes E t (m t)))⟩ where
  logs t' := by
    by_cases htt : t' = t
    · subst htt
      simp only [Function.update_self]
      exact (h.logs t').canonical hE
    · simp only [Function.update_of_ne htt]
      exact h.logs t'
  loaded := h.loaded
  isLazy := h.isLazy

theorem Holds.written (hE : E.Lawful) (h : Holds E m s) {t : Table}
    (hloaded : s.handle.loadedTables t = true) {r : t.Record} (hr : t.check E r = .ok ())
    (hb : Bounded t r) : Holds E (Function.update m t (t.put (m t) r))
      ⟨s.handle.written t r, s.logs.appended E t r⟩ where
  logs t' := by
    by_cases htt : t' = t
    · subst htt
      simp only [Function.update_self, Directory.appended]
      exact (h.logs t').append hE hr hb
    · simp only [Function.update_of_ne htt, Directory.appended]
      exact h.logs t'
  loaded t' ht' := by
    by_cases htt : t' = t
    · subst htt
      simp only [FileCache.written, Function.update_self, h.loaded t' hloaded]
    · simp only [FileCache.written, Function.update_of_ne htt]
      exact h.loaded t' ht'
  isLazy t' ht' := by
    have htt : t' ≠ t := by
      rintro rfl
      exact Bool.false_ne_true (ht'.symm.trans hloaded)
    simp only [FileCache.written, Function.update_of_ne htt]
    exact h.isLazy t' ht'

/-- A write is refused or accepted as in memory. -/
theorem Holds.write (hE : E.Lawful) (h : Holds E m s) {t : Table} {r : t.Record}
    (hb : Bounded t r) :
    (∃ e s', m.write E t r = .error e ∧ perform (Cache.write E t r) s = (.error e, s') ∧
      Holds E m s') ∨
    ∃ m' s', m.write E t r = .ok m' ∧ perform (Cache.write E t r) s = (.ok (), s') ∧
      Holds E m' s' := by
  obtain ⟨s', hperform, hs', hupdate⟩ := h.ensureTableLoaded t
  have hloaded : s'.handle.loadedTables t = true := by rw [hupdate, Function.update_self]
  have hsame : perform (Cache.write E t r) s = perform (Cache.write E t r) s' :=
    perform_loaded_bind hperform hloaded
  rw [hsame]
  cases hcheck : t.check E r with
  | error e =>
      refine Or.inl ⟨e, s', by rw [InMemoryCache.write, hcheck]; rfl, perform_of_run ?_, hs'⟩
      unfold Cache.write
      rw [FileM.run_bind_ok (run_ensureTableLoaded_loaded hloaded s'.logs),
        FileM.run_bind_ok (FileM.run_get _ _), InMemoryCache.write, hcheck]
      rfl
  | ok a =>
      have hwritten := hs'.written hE hloaded hcheck hb
      have hinner := hwritten.loaded t hloaded
      have hmemory : m.write E t r = .ok (Function.update m t (t.put (m t) r)) := by
        rw [InMemoryCache.write, hcheck]
        rfl
      have hrun := run_write_loaded (E := E) (d := s'.logs) hloaded hcheck
      split_ifs at hrun
      · refine Or.inr ⟨_, _, hmemory, perform_of_run hrun, ?_⟩
        have hcompacted := hwritten.compacted hE t
          (Function.update (s'.handle.written t r).tableLineCounts t
            ((s'.handle.written t r).inner t).values.length)
        rwa [← hinner] at hcompacted
      · exact Or.inr ⟨_, _, hmemory, perform_of_run hrun, hwritten⟩

theorem Holds.lookup (h : Holds E m s) (l : Lookup) :
    ∃ s', perform (Cache.lookup E l) s = (.ok (l.answer m), s') ∧ Holds E m s' := by
  obtain ⟨s', hperform, hs', hupdate⟩ := h.ensureTableLoaded l.table
  have hloaded : s'.handle.loadedTables l.table = true := by rw [hupdate, Function.update_self]
  refine ⟨s', ?_, hs'⟩
  have hsame : perform (Cache.lookup E l) s = perform (Cache.lookup E l) s' :=
    perform_loaded_bind hperform hloaded
  rw [hsame, perform_of_run (run_lookup (run_ensureTableLoaded_loaded hloaded s'.logs)),
    l.answer_congr (hs'.loaded _ hloaded)]

/-! ## Compaction -/

theorem perform_rewriteTableAtomic (t : Table) (records : List t.Record) (evicted : t.Key → Bool)
    (s : FileStore) : perform (rewriteTableAtomic E t records evicted) s =
      (.ok (), ⟨s.handle, Function.update s.logs t
        (some (Utf8.encode (records.flatMap (lineText E t))))⟩) := by
  refine perform_of_run ?_
  unfold rewriteTableAtomic
  rw [FileM.run_bind_ok (FileM.run_request _ s.handle s.logs)]
  rfl

theorem Holds.compactSingleTable (hE : E.Lawful) (h : Holds E m s) {t : Table}
    (hloaded : s.handle.loadedTables t = true) (report : CompactionReport) :
    ∃ report' s', perform (Cache.compactSingleTable E t report) s = (.ok report', s') ∧
      Holds E m s' ∧ s'.handle.loadedTables = s.handle.loadedTables := by
  have hget : perform FileM.get s = (.ok s.handle, s) := rfl
  unfold Cache.compactSingleTable
  rw [perform_bind_ok hget]
  dsimp only
  split_ifs
  · exact ⟨_, s, rfl, h, rfl⟩
  · refine ⟨_, _, (perform_bind_ok (perform_rewriteTableAtomic t _ _ s)).trans rfl, ?_, rfl⟩
    have hcompacted := h.compacted hE t
      (Function.update s.handle.tableLineCounts t (s.handle.inner t).values.length)
    rwa [← h.loaded t hloaded] at hcompacted

/-- Compaction does not change the tables. -/
theorem Holds.compactUpsertTables (hE : E.Lawful) (h : Holds E m s) :
    ∃ report s', perform (Cache.compactUpsertTables E) s = (.ok report, s') ∧ Holds E m s' := by
  obtain ⟨s₁, hs₁, h₁, hupdate₁⟩ := h.ensureTableLoaded .profiles
  obtain ⟨s₂, hs₂, h₂, hupdate₂⟩ := h₁.ensureTableLoaded .datasetManifests
  obtain ⟨s₃, hs₃, h₃, hupdate₃⟩ := h₂.ensureTableLoaded .queryPlans
  have hloaded : ∀ t, t.isUpsert = true → s₃.handle.loadedTables t = true := by
    intro t ht
    rw [hupdate₃, hupdate₂, hupdate₁]
    cases t with
    | profiles | datasetManifests | queryPlans => simp [Function.update]
    | _ => cases ht
  obtain ⟨report₄, s₄, hs₄, h₄, hloaded₄⟩ :=
    h₃.compactSingleTable hE (hloaded .profiles rfl) ⟨0, 0, 0⟩
  obtain ⟨report₅, s₅, hs₅, h₅, hloaded₅⟩ :=
    h₄.compactSingleTable hE (hloaded₄ ▸ hloaded .datasetManifests rfl) report₄
  obtain ⟨report₆, s₆, hs₆, h₆, -⟩ :=
    h₅.compactSingleTable hE (hloaded₅ ▸ hloaded₄ ▸ hloaded .queryPlans rfl) report₅
  refine ⟨report₆, s₆, ?_, h₆⟩
  unfold Cache.compactUpsertTables
  rw [perform_bind_ok hs₁, perform_bind_ok hs₂, perform_bind_ok hs₃, perform_bind_ok hs₄,
    perform_bind_ok hs₅, hs₆]

/-! ## Retention -/

/-- The handle has the tables, and so have the logs but for some that are still
to be rewritten. -/
structure HoldsBut (E : Crates) (ts : List Table) (m : InMemoryCache) (s : FileStore) : Prop where
  logs : ∀ t, t ∉ ts → Stores E t (m t) (s.logs t)
  canonical : ∀ t ∈ ts, Stores E t (m t) (some (canonicalBytes E t (m t)))
  pending : ∀ t ∈ ts, s.handle.loadedTables t = true
  loaded : ∀ t, s.handle.loadedTables t = true → s.handle.inner t = m t
  isLazy : s.handle.Lazy

theorem HoldsBut.holds (h : HoldsBut E [] m s) : Holds E m s :=
  ⟨fun t ↦ h.logs t List.not_mem_nil, h.loaded, h.isLazy⟩

theorem HoldsBut.rewriteRetained {t : Table} {ts : List Table} (h : HoldsBut E (t :: ts) m s)
    (evicted : t.Key → Bool) :
    ∃ s', perform (Cache.rewriteRetained E t evicted) s = (.ok (), s') ∧ HoldsBut E ts m s' := by
  have hget : perform FileM.get s = (.ok s.handle, s) := rfl
  have hinner := h.loaded t (h.pending t List.mem_cons_self)
  unfold Cache.rewriteRetained
  rw [perform_bind_ok hget]
  refine ⟨_, (perform_bind_ok (perform_rewriteTableAtomic t _ _ s)).trans rfl, ?_⟩
  refine ⟨fun t' ht' ↦ ?_, fun t' ht' ↦ h.canonical t' (List.mem_cons_of_mem t ht'),
    fun t' ht' ↦ h.pending t' (List.mem_cons_of_mem t ht'), h.loaded, h.isLazy⟩
  show Stores E t' (m t') (Function.update s.logs t _ t')
  by_cases htt : t' = t
  · subst htt
    rw [Function.update_self, hinner]
    exact h.canonical t' List.mem_cons_self
  · rw [Function.update_of_ne htt]
    exact h.logs t' fun hmem ↦ (List.mem_cons.mp hmem).elim htt ht'

theorem droppedReceipts_congr {c c' : InMemoryCache} {policy : RetentionPolicy}
    (h : policy.maxReceiptsPerProfile.isSome → c .queryReceipts = c' .queryReceipts) :
    droppedReceipts c policy = droppedReceipts c' policy := by
  unfold droppedReceipts
  cases hmax : policy.maxReceiptsPerProfile with
  | none => rfl
  | some max =>
      simp only [Option.elim_some, InMemoryCache.receiptsToDrop, h (by rw [hmax]; rfl)]

theorem droppedSnapshots_congr_of_isSome {c c' : InMemoryCache} {policy : RetentionPolicy}
    (h : policy.maxSnapshotsPerScope.isSome → c .catalogSnapshots = c' .catalogSnapshots) :
    droppedSnapshots c policy = droppedSnapshots c' policy := by
  unfold droppedSnapshots
  cases hmax : policy.maxSnapshotsPerScope with
  | none => rfl
  | some max =>
      simp only [Option.elim_some, InMemoryCache.snapshotsToDrop, h (by rw [hmax]; rfl)]

section Retention

variable (policy : RetentionPolicy) (h : Holds E m s)
  (hloaded : ∀ t ∈ retainedTables policy, s.handle.loadedTables t = true)
include h hloaded

theorem Holds.droppedReceipts_eq :
    droppedReceipts s.handle.inner policy = droppedReceipts m policy :=
  droppedReceipts_congr fun hsome ↦ h.loaded _ (hloaded _ (by simp [retainedTables, hsome]))

theorem Holds.droppedSnapshots_eq :
    droppedSnapshots s.handle.inner policy = droppedSnapshots m policy :=
  droppedSnapshots_congr_of_isSome fun hsome ↦
    h.loaded _ (hloaded _ (by simp [retainedTables, hsome]))

omit hloaded in
theorem Holds.keyed_inner (t : Table) : Keyed t (s.handle.inner t) := by
  cases ht : s.handle.loadedTables t with
  | true =>
      rw [h.loaded t ht]
      exact h.keyed t
  | false =>
      rw [h.isLazy t ht]
      exact keyed_empty t

theorem Holds.evicted_eq : (s.handle.inner.applyRetentionInMemory policy).2 =
    (m.applyRetentionInMemory policy).2 := by
  rw [applyRetentionInMemory_snd h.keyed_inner, applyRetentionInMemory_snd h.keyed,
    h.droppedReceipts_eq policy hloaded, h.droppedSnapshots_eq policy hloaded]

/-- The tables in memory after retention. -/
theorem Holds.retaining (hE : E.Lawful) :
    HoldsBut E (retainedTables policy) (m.applyRetentionInMemory policy).1
      ⟨{ s.handle with inner := (s.handle.inner.applyRetentionInMemory policy).1 }, s.logs⟩ := by
  have hm : ∀ t, (m.applyRetentionInMemory policy).1 t = without (m t) (evictedKeys m policy t) :=
    applyRetentionInMemory_fst (h.keyed .queryReceipts) policy
  have hinner : ∀ t, (s.handle.inner.applyRetentionInMemory policy).1 t =
      without (s.handle.inner t) (evictedKeys m policy t) := by
    intro t
    have hkeys : evictedKeys s.handle.inner policy t = evictedKeys m policy t := by
      funext k
      cases t <;> simp only [evictedKeys, h.droppedReceipts_eq policy hloaded,
        h.droppedSnapshots_eq policy hloaded]
    rw [applyRetentionInMemory_fst (h.keyed_inner .queryReceipts) policy t, hkeys]
    rfl
  refine ⟨fun t ht ↦ ?_, fun t ht ↦ ?_, hloaded, fun t ht ↦ ?_, fun t ht ↦ ?_⟩
  · have hnone : evictedKeys m policy t = fun _ ↦ false :=
      funext fun k ↦ evictedKeys_eq_false m ht k
    rw [hm, hnone, without_none]
    exact h.logs t
  · rw [hm]
    exact (h.logs t).canonical_without hE _
  · exact (hinner t).trans ((congrArg (without · _) (h.loaded t ht)).trans (hm t).symm)
  · exact (hinner t).trans ((congrArg (without · _) (h.isLazy t ht)).trans rfl)

/-- Retention in memory, and the rewrites that follow it. -/
theorem Holds.retention (hE : E.Lawful) {x : FileCache → FileM Nat}
    (hx : ∀ s', HoldsBut E (retainedTables policy) (m.applyRetentionInMemory policy).1 s' →
      ∃ s'', perform (x s.handle) s' =
          (.ok (s.handle.inner.applyRetentionInMemory policy).2, s'') ∧
        Holds E (m.applyRetentionInMemory policy).1 s'') :
    ∃ s'', perform (do
      let c ← FileM.get
      FileM.modify fun c' ↦ { c' with inner := (c.inner.applyRetentionInMemory policy).1 }
      if 0 < (c.inner.applyRetentionInMemory policy).2 then x c
      else pure (c.inner.applyRetentionInMemory policy).2) s =
        (.ok (m.applyRetentionInMemory policy).2, s'') ∧
      Holds E (m.applyRetentionInMemory policy).1 s'' := by
  have hget : perform FileM.get s = (.ok s.handle, s) := rfl
  have hevicted := h.evicted_eq policy hloaded
  have hmodify : perform (FileM.modify fun c' ↦
      { c' with inner := (s.handle.inner.applyRetentionInMemory policy).1 }) s = (.ok (),
        ⟨{ s.handle with inner := (s.handle.inner.applyRetentionInMemory policy).1 }, s.logs⟩) := rfl
  rw [perform_bind_ok hget, perform_bind_ok hmodify, ← hevicted]
  split_ifs with hpos
  · exact hx _ (h.retaining policy hloaded hE)
  · have hzero : (m.applyRetentionInMemory policy).2 = 0 := by
      rw [← hevicted]
      exact Nat.eq_zero_of_not_pos hpos
    have hinner := applyRetentionInMemory_zero (hevicted.trans hzero)
    rw [applyRetentionInMemory_zero hzero, hinner]
    exact ⟨s, rfl, h⟩

end Retention

/-- Retention evicts the records that it evicts in memory. -/
theorem Holds.applyRetention (hE : E.Lawful) (h : Holds E m s) (policy : RetentionPolicy) :
    ∃ s', perform (Cache.applyRetention E policy) s = (.ok (m.applyRetentionInMemory policy).2, s') ∧
      Holds E (m.applyRetentionInMemory policy).1 s' := by
  obtain ⟨receipts, snapshots⟩ := policy
  unfold Cache.applyRetention
  cases receipts with
  | none =>
      cases snapshots with
      | none =>
          simp only [Option.isSome_none, Bool.false_eq_true, if_false]
          exact h.retention ⟨none, none⟩ (fun t ht ↦ absurd ht List.not_mem_nil) hE
            (x := fun c ↦ pure (c.inner.applyRetentionInMemory ⟨none, none⟩).2)
            fun s' hs' ↦ ⟨s', rfl, hs'.holds⟩
      | some max =>
          simp only [Option.isSome_none, Option.isSome_some, if_true, Bool.false_eq_true, if_false]
          obtain ⟨s₁, hs₁, h₁, hupdate₁⟩ := h.ensureTableLoaded .catalogSnapshots
          rw [perform_bind_ok hs₁]
          refine h₁.retention ⟨none, some max⟩ ?_ hE fun s' hs' ↦ ?_
          · simp [retainedTables, hupdate₁]
          · have hs' : HoldsBut E [.catalogSnapshots] _ s' := hs'
            obtain ⟨s₂, hs₂, h₂⟩ := hs'.rewriteRetained _
            exact ⟨s₂, perform_bind_ok hs₂, h₂.holds⟩
  | some max =>
      obtain ⟨s₁, hs₁, h₁, hupdate₁⟩ := h.ensureTableLoaded .queryReceipts
      obtain ⟨s₂, hs₂, h₂, hupdate₂⟩ := h₁.ensureTableLoaded .partitionMetadata
      cases snapshots with
      | none =>
          simp only [Option.isSome_none, Option.isSome_some, if_true, Bool.false_eq_true, if_false]
          rw [perform_bind_ok hs₁, perform_bind_ok hs₂]
          refine h₂.retention ⟨some max, none⟩ ?_ hE fun s' hs' ↦ ?_
          · simp [retainedTables, hupdate₁, hupdate₂, Function.update]
          · have hs' : HoldsBut E [.queryReceipts, .partitionMetadata] _ s' := hs'
            obtain ⟨s₃, hs₃, h₃⟩ := hs'.rewriteRetained _
            obtain ⟨s₄, hs₄, h₄⟩ := h₃.rewriteRetained _
            exact ⟨s₄, (perform_bind_ok hs₃).trans (perform_bind_ok hs₄), h₄.holds⟩
      | some max' =>
          obtain ⟨s₃, hs₃, h₃, hupdate₃⟩ := h₂.ensureTableLoaded .catalogSnapshots
          simp only [Option.isSome_some, if_true]
          rw [perform_bind_ok hs₁, perform_bind_ok hs₂, perform_bind_ok hs₃]
          refine h₃.retention ⟨some max, some max'⟩ ?_ hE fun s' hs' ↦ ?_
          · simp [retainedTables, hupdate₁, hupdate₂, hupdate₃, Function.update]
          · have hs' : HoldsBut E [.queryReceipts, .partitionMetadata, .catalogSnapshots] _ s' := hs'
            obtain ⟨s₄, hs₄, h₄⟩ := hs'.rewriteRetained _
            obtain ⟨s₅, hs₅, h₅⟩ := h₄.rewriteRetained _
            obtain ⟨s₆, hs₆, h₆⟩ := h₅.rewriteRetained _
            exact ⟨s₆, (perform_bind_ok hs₄).trans ((perform_bind_ok hs₅).trans
              (perform_bind_ok hs₆)), h₆.holds⟩

end FileStore

end FrankenSnowflake.Cache
