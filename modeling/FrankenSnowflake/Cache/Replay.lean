import FrankenSnowflake.Cache.Backends

/-!
# Replay of a file store

A replay reads every log and writes its lines into a backend.  Whatever part of
the lines was replayed before, the backend then has the tables of the store.
-/

namespace FrankenSnowflake.Cache

open Foundation
open FrankenSqliteCache (Bounded)

/-! ## Lines of a store -/

/-- The complete lines of a log, if it can be read. -/
def Directory.logLines (d : Directory) (t : Table) : List Text :=
  (((d t).bind Utf8.decode).elim [] fun content ↦ lines (completeLines content))

/-- The lines of a store, in the order in which they are replayed. -/
def Directory.allLines (d : Directory) : List (Table × Text) :=
  Table.all.flatMap fun t ↦ (d.logLines t).map (t, ·)

section Replays

variable (E : Crates) {σ : Type} (target : Target σ)

/-- Replay one line. -/
def replayLine (s : σ) (l : Table × Text) : σ := (loadLine E target l.1 ⟨s, 0, 0⟩ l.2).target

/-- A replay that is interrupted after `k` lines. -/
def replayPrefix (d : Directory) (s : σ) (k : Nat) : σ :=
  (d.allLines.take k).foldl (replayLine E target) s

end Replays

variable {E : Crates} {σ : Type} {target : Target σ}

/-- What a line does to the target is not a matter of counts. -/
theorem loadLine_target (t : Table) (s : Loading σ) (line : Text) :
    (loadLine E target t s line).target = replayLine E target s.target (t, line) := by
  unfold replayLine loadLine
  split_ifs
  · rfl
  · cases E.fromStr t line with
    | none => rfl
    | some l =>
        dsimp only
        split_ifs
        · rcases target t l.r s.target with ⟨e | a, s'⟩ <;> rfl
        · rfl

theorem loadLines_target (t : Table) (s : Loading σ) (content : Text) :
    (loadLines E target t s content).target =
      ((lines (completeLines content)).map (t, ·)).foldl (replayLine E target) s.target := by
  unfold loadLines
  induction lines (completeLines content) generalizing s with
  | nil => rfl
  | cons line ls ih => rw [List.foldl_cons, ih, List.map_cons, List.foldl_cons, loadLine_target]

/-- The log of a table is there and is text, or is missing. -/
def Directory.Readable (d : Directory) : Prop :=
  ∀ t bytes, d t = some bytes → (Utf8.decode bytes).isSome

theorem run_loadTable_replay (target : Target σ) {d : Directory} (hd : d.Readable) (t : Table) (s : σ) (c : FileCache) :
    ∃ count c', (loadTable E target t s).run c d =
      ((.ok (count, ((d.logLines t).map (t, ·)).foldl (replayLine E target) s), c'), d) := by
  unfold loadTable
  cases hlog : d t with
  | none =>
      refine ⟨0, c, ?_⟩
      rw [FileM.run_bind_ok (FileM.run_request _ c d)]
      simp [Directory.perform, Directory.logLines, hlog]
  | some bytes =>
      obtain ⟨content, hdecode⟩ := Option.isSome_iff_exists.mp (hd t bytes hlog)
      have hlines : d.logLines t = lines (completeLines content) := by
        simp [Directory.logLines, hlog, hdecode]
      rw [FileM.run_bind_ok (FileM.run_request _ c d)]
      simp only [Directory.perform, hlog, hdecode]
      rw [FileM.run_bind_ok (FileM.run_get c d), FileM.run_bind_ok (FileM.run_modify _ c d), hlines,
        FileM.run_pure, loadLines_target]
      exact ⟨_, _, rfl⟩

theorem run_replayTables (target : Target σ) {d : Directory} (hd : d.Readable) (ts : List Table) (s : σ)
    (c : FileCache) : ∃ c', (replayTables E target ts s).run c d =
      ((.ok (.ok (), (ts.flatMap fun t ↦ (d.logLines t).map (t, ·)).foldl (replayLine E target) s),
        c'), d) := by
  induction ts generalizing s c with
  | nil => exact ⟨c, rfl⟩
  | cons t ts ih =>
      obtain ⟨count, c', hload⟩ := run_loadTable_replay (E := E) target hd t s c
      unfold replayTables
      rw [FileM.run_bind_ok (FileM.run_attempt _ c d), hload, List.flatMap_cons, List.foldl_append]
      exact ih _ c'

/-- A replay goes through all lines. -/
theorem run_replayInto (target : Target σ) {d : Directory} (hd : d.Readable) (s : σ) (c : FileCache) :
    ∃ n c', (replayInto E target s).run c d =
      ((.ok (.ok n, d.allLines.foldl (replayLine E target) s), c'), d) := by
  obtain ⟨c', hrun⟩ := run_replayTables (E := E) target hd Table.all s c
  unfold replayInto replayLogs
  rw [FileM.run_bind_ok (FileM.run_get c d), FileM.run_bind_ok hrun,
    FileM.run_bind_ok (FileM.run_get c' d)]
  exact ⟨_, _, rfl⟩

/-! ## Replays in step -/

section Refines

variable {B : Backend} (R : Refines E B)

theorem Refines.replayLine {m : InMemoryCache} {s : B.State} (h : R.Rel m s) {l : Table × Text}
    (hl : ∀ r, E.fromStr l.1 l.2 = some ⟨lineVersion, r⟩ → Bounded l.1 r) :
    R.Rel (Cache.replayLine E (memoryTarget E) m l) (Cache.replayLine E B.write s l) := by
  unfold Cache.replayLine loadLine
  split_ifs
  · exact h
  · cases hline : E.fromStr l.1 l.2 with
    | none => exact h
    | some line =>
        obtain ⟨v, r⟩ := line
        dsimp only
        split_ifs with hv
        · subst hv
          obtain ⟨hreply, hrel⟩ := R.write h (hl r hline)
          revert hreply hrel
          rcases memoryTarget E l.1 r m with ⟨e | a, m'⟩ <;>
            rcases B.write l.1 r s with ⟨e' | a', s'⟩ <;> intro hreply hrel
          · exact hrel
          · cases hreply
          · cases hreply
          · exact hrel
        · exact h

theorem Refines.foldl_replayLine {ls : List (Table × Text)}
    (hls : ∀ l ∈ ls, ∀ r, E.fromStr l.1 l.2 = some ⟨lineVersion, r⟩ → Bounded l.1 r)
    {m : InMemoryCache} {s : B.State} (h : R.Rel m s) :
    R.Rel (ls.foldl (Cache.replayLine E (memoryTarget E)) m)
      (ls.foldl (Cache.replayLine E B.write) s) := by
  induction ls generalizing m s with
  | nil => exact h
  | cons l ls ih =>
      obtain ⟨hl, hls⟩ := List.forall_mem_cons.mp hls
      exact ih hls (R.replayLine h hl)

end Refines

/-! ## Replays in memory -/

/-- A line that puts a record into its table. -/
theorem replayLine_valid {t : Table} {line : Text} {r : t.Record} (h : ValidLine E t line r)
    (m : InMemoryCache) : replayLine E (memoryTarget E) m (t, chomp line) =
      Function.update m t (t.put (m t) r) := by
  unfold replayLine
  dsimp only
  rw [loadLine_valid (memoryTarget E) h, takeRecord, memoryTarget, InMemoryCache.write, h.checks]
  rfl

theorem foldl_replayLine_valid {t : Table} {ls : List Text} {rs : List t.Record}
    (h : ValidLines E t ls rs) (m : InMemoryCache) :
    ((ls.map chomp).map (t, ·)).foldl (replayLine E (memoryTarget E)) m =
      Function.update m t (rs.foldl t.put (m t)) := by
  induction h generalizing m with
  | nil => rw [List.map_nil, List.map_nil, List.foldl_nil, List.foldl_nil, Function.update_eq_self]
  | cons hline _ ih =>
      rw [List.map_cons, List.map_cons, List.foldl_cons, ih, replayLine_valid hline,
        Function.update_self, Function.update_idem, List.foldl_cons]

/-- A part of the lines puts the first records of each table into it. -/
theorem exists_replayed {ls : Table → List Text} {rs : (t : Table) → List t.Record}
    (h : ∀ t, ValidLines E t (ls t) (rs t)) {ts : List Table} (hts : ts.Nodup) (k : Nat) :
    ∃ ks : Table → Nat, (∀ t, t ∉ ts → ks t = 0) ∧
      ((ts.flatMap fun t ↦ ((ls t).map chomp).map (t, ·)).length ≤ k →
        ∀ t ∈ ts, (rs t).length ≤ ks t) ∧
      ∀ m, ((ts.flatMap fun t ↦ ((ls t).map chomp).map (t, ·)).take k).foldl
          (replayLine E (memoryTarget E)) m = fun t ↦ ((rs t).take (ks t)).foldl t.put (m t) := by
  induction ts generalizing k with
  | nil =>
      refine ⟨fun _ ↦ 0, fun _ _ ↦ rfl, by simp, fun m ↦ ?_⟩
      rw [List.flatMap_nil, List.take_nil]
      rfl
  | cons t ts ih =>
      obtain ⟨ht, hts⟩ := List.nodup_cons.mp hts
      obtain ⟨ks, hzero, hfull, hks⟩ := ih hts (k - (ls t).length)
      have hlength : (rs t).length = (ls t).length := (h t).length_eq.symm
      refine ⟨Function.update ks t k, fun t' ht' ↦ ?_, fun hk t' ht' ↦ ?_, fun m ↦ ?_⟩
      · have hne : t' ≠ t := fun heq ↦ ht' (heq ▸ List.mem_cons_self)
        rw [Function.update_of_ne hne]
        exact hzero t' fun hmem ↦ ht' (List.mem_cons_of_mem t hmem)
      · rw [List.flatMap_cons, List.length_append, List.length_map, List.length_map] at hk
        by_cases htt : t' = t
        · subst htt
          rw [Function.update_self]
          omega
        · rw [Function.update_of_ne htt]
          exact hfull (by omega) t' ((List.mem_cons.mp ht').resolve_left htt)
      · rw [List.flatMap_cons, List.take_append, List.foldl_append, List.length_map, List.length_map,
          hks, ← List.map_take, ← List.map_take, foldl_replayLine_valid (List.forall₂_take k (h t))]
        funext t'
        by_cases htt : t' = t
        · subst htt
          rw [Function.update_self, Function.update_self, hzero t' ht, List.take_zero]
          rfl
        · rw [Function.update_of_ne htt, Function.update_of_ne htt]

/-! ## Interrupted replays -/

/-- What is in a table is what the records put there, as far as that is settled
by the first of them. -/
def Within (t : Table) (rs : List t.Record) (m : SortedMap t.Key t.Record) : Prop :=
  ∀ k r, m.get? k = some r →
    if t.lastWriteWins then ∃ r' ∈ rs, t.key r' = k else rs.find? (t.key · = k) = some r

variable {t : Table} {rs : List t.Record} {m : SortedMap t.Key t.Record}

theorem within_empty : Within t rs .empty := by
  intro k r hk
  cases hk

theorem Within.foldl_take (h : Within t rs m) (n : Nat) : Within t rs ((rs.take n).foldl t.put m) := by
  intro k r hk
  rw [get?_foldl_put] at hk
  have hm := h k r
  split_ifs at hk hm ⊢
  · rcases Option.or_eq_some_iff.mp hk with hfind | ⟨-, hget⟩
    · have hmem := List.mem_of_mem_take (List.mem_reverse.mp (List.mem_of_find?_eq_some hfind))
      exact ⟨r, hmem, by simpa using List.find?_some hfind⟩
    · exact hm hget
  · rcases Option.or_eq_some_iff.mp hk with hget | ⟨-, hfind⟩
    · exact hm hget
    · rw [← List.take_append_drop n rs, List.find?_append, hfind]
      rfl

/-- All records, over what some of them left. -/
theorem Within.foldl (h : Within t rs m) : rs.foldl t.put m = recordsOf t rs := by
  refine SortedMap.ext fun k ↦ ?_
  rw [recordsOf, get?_foldl_put, get?_foldl_put, SortedMap.get?_empty, Option.or_none, Option.none_or]
  cases hget : m.get? k with
  | none => rw [Option.or_none, Option.none_or]
  | some r =>
      have hm := h k r hget
      split_ifs at hm ⊢
      · obtain ⟨r', hr', hkey⟩ := hm
        have hsome : (rs.reverse.find? (t.key · = k)).isSome :=
          List.find?_isSome.mpr ⟨r', List.mem_reverse.mpr hr', decide_eq_true hkey⟩
        obtain ⟨r'', hr''⟩ := Option.isSome_iff_exists.mp hsome
        rw [hr'']
        rfl
      · rw [hm]
        rfl

/-! ## Replay of a store -/

theorem logLines_of_holdsRecords {d : Directory} {ls : List Text} (hlines : ValidLines E t ls rs)
    (hlog : d t = some (Utf8.encode (unlines ls)) ∨ d t = none ∧ rs = []) :
    d.logLines t = ls.map chomp := by
  unfold Directory.logLines
  rcases hlog with hlog | ⟨hlog, rfl⟩
  · rw [hlog, Option.bind_some, Utf8.decode_encode, Option.elim_some, completeLines_unlines,
      lines_unlines hlines.newline]
  · cases hlines
    rw [hlog]
    rfl

namespace FileStore

variable {m : InMemoryCache} {s : FileStore}

theorem Holds.readable (h : Holds E m s) : s.logs.Readable := by
  intro t bytes hbytes
  obtain ⟨rs, ⟨-, ls, -, hlog⟩, -⟩ := h.logs t
  rcases hlog with hlog | ⟨hlog, -⟩
  · rw [← Option.some.inj (hlog.symm.trans hbytes), Utf8.decode_encode]
    rfl
  · cases hlog.symm.trans hbytes

theorem Holds.fits (h : Holds E m s) : ∀ l ∈ s.logs.allLines, ∀ r,
    E.fromStr l.1 l.2 = some ⟨lineVersion, r⟩ → Bounded l.1 r := by
  intro l hl r hr
  obtain ⟨t, -, hmem⟩ := List.mem_flatMap.mp hl
  obtain ⟨line, hline, rfl⟩ := List.mem_map.mp hmem
  obtain ⟨rs, ⟨hbounded, ls, hlines, hlog⟩, -⟩ := h.logs t
  rw [logLines_of_holdsRecords hlines hlog] at hline
  obtain ⟨line', hline', rfl⟩ := List.mem_map.mp hline
  obtain ⟨i, hi, rfl⟩ := List.mem_iff_getElem.mp hline'
  have hi' : i < rs.length := hlines.length_eq ▸ hi
  have hvalid : ValidLine E t ls[i] rs[i] := hlines.get hi hi'
  have hparse := Option.some.inj (hr.symm.trans hvalid.parses)
  rw [(Line.mk.inj hparse).2]
  exact hbounded _ (List.getElem_mem hi')

/-- In memory, a replay yields the tables, also after interrupted replays. -/
theorem Holds.replay_memory (h : Holds E m s) (interruptions : List Nat) :
    s.logs.allLines.foldl (replayLine E (memoryTarget E))
      (interruptions.foldl (replayPrefix E (memoryTarget E) s.logs) .new) = m := by
  choose rs hrecords hm using h.logs
  choose ls hlines hlog using fun t ↦ (hrecords t).2
  have hall : s.logs.allLines = Table.all.flatMap fun t ↦ ((ls t).map chomp).map (t, ·) := by
    unfold Directory.allLines
    exact List.flatMap_congr fun t _ ↦ by rw [logLines_of_holdsRecords (hlines t) (hlog t)]
  have hnodup : Table.all.Nodup := by decide
  have hwithin : ∀ t, Within t (rs t)
      ((interruptions.foldl (replayPrefix E (memoryTarget E) s.logs) .new) t) := by
    induction interruptions using List.reverseRecOn with
    | nil => exact fun t ↦ within_empty
    | append_singleton ns n ih =>
        intro t
        obtain ⟨ks, -, -, hks⟩ := exists_replayed hlines hnodup n
        rw [List.foldl_append, List.foldl_cons, List.foldl_nil, replayPrefix, hall, hks]
        exact (ih t).foldl_take _
  obtain ⟨ks, -, hfull, hks⟩ := exists_replayed hlines hnodup s.logs.allLines.length
  have hrun := hks (interruptions.foldl (replayPrefix E (memoryTarget E) s.logs) .new)
  rw [← hall, List.take_length] at hrun
  rw [← hall] at hfull
  rw [hrun]
  funext t
  have hmem : t ∈ Table.all := by cases t <;> decide
  rw [List.take_of_length_le (hfull le_rfl t hmem), (hwithin t).foldl]
  exact (hm t).symm

end FileStore

/-- A replay into a backend, also after interrupted replays, succeeds and leaves
the tables of the store. -/
theorem Refines.replay {B : Backend} (R : Refines E B) {m : InMemoryCache} {s : FileStore}
    (h : FileStore.Holds E m s) (interruptions : List Nat) :
    R.Rel m (s.logs.allLines.foldl (Cache.replayLine E B.write)
      (interruptions.foldl (replayPrefix E B.write s.logs) B.empty)) := by
  have hprefix : R.Rel (interruptions.foldl (replayPrefix E (memoryTarget E) s.logs) .new)
      (interruptions.foldl (replayPrefix E B.write s.logs) B.empty) := by
    induction interruptions using List.reverseRecOn with
    | nil => exact R.empty
    | append_singleton ns n ih =>
        rw [List.foldl_append, List.foldl_append]
        exact R.foldl_replayLine (fun l hl ↦ h.fits l (List.mem_of_mem_take hl)) ih
  have hreplay := R.foldl_replayLine h.fits hprefix
  rwa [h.replay_memory] at hreplay

/-! ## The backends agree -/

/-- Every replay of a store into a backend yields one that answers as the store,
also after interrupted replays. -/
def Reproduces (E : Crates) (s : FileStore) (B : Backend) : Prop :=
  ∀ interruptions : List Nat, ∃ n b c,
    (replayInto E B.write (interruptions.foldl (replayPrefix E B.write s.logs) B.empty)).run
      s.handle s.logs = ((.ok (.ok n, b), c), s.logs) ∧
    ∀ l, (B.lookup l b).1 = ((fileBackend E).lookup l s).1

theorem Refines.reproduces (hE : E.Lawful) {B : Backend} (R : Refines E B) {m : InMemoryCache}
    {s : FileStore} (h : FileStore.Holds E m s) : Reproduces E s B := by
  intro interruptions
  obtain ⟨n, c, hrun⟩ := run_replayInto (E := E) B.write h.readable
    (interruptions.foldl (replayPrefix E B.write s.logs) B.empty) s.handle
  refine ⟨n, _, c, hrun, fun l ↦ ?_⟩
  rw [(R.lookup l (R.replay h interruptions)).1, ((fileRefines hE).lookup l h).1]

/-- The backends reply alike to every script, and a replay of the file store
reproduces it. -/
def BackendsAgree (E : Crates) (steps : List ScriptStep) : Prop :=
  (FileStore.script E steps .empty).1 = ((memoryBackend E).replies (requests steps) .new).1 ∧
    ((sqliteBackend E).replies (requests steps) .new).1 =
      ((memoryBackend E).replies (requests steps) .new).1 ∧
    ∀ B ∈ [memoryBackend E, sqliteBackend E, fileBackend E],
      Reproduces E (FileStore.script E steps .empty).2 B

theorem backendsAgree (hE : E.Lawful) (steps : List ScriptStep)
    (hsteps : ∀ q, .request q ∈ steps → q.Fits) : BackendsAgree E steps := by
  have hqs : ∀ q ∈ requests steps, q.Fits := by
    intro q hq
    obtain ⟨step, hstep, heq⟩ := List.mem_filterMap.mp hq
    cases step with
    | request q' =>
        cases heq
        exact hsteps q hstep
    | reopen | compact => cases heq
  obtain ⟨hfile, hholds⟩ := FileStore.holds_empty.script hE hsteps
  refine ⟨hfile, (sqliteRefines.replies hqs FrankenSqliteCache.simulates_new).1, fun B hB ↦ ?_⟩
  simp only [List.mem_cons, List.not_mem_nil, or_false] at hB
  rcases hB with rfl | rfl | rfl
  · exact memoryRefines.reproduces hE hholds
  · exact sqliteRefines.reproduces hE hholds
  · exact (fileRefines hE).reproduces hE hholds

/-- An audit event that is written twice, the second time with another text, in a
store that is closed and compacted in between. -/
theorem backendsAgree_auditEvents : BackendsAgree jsonCrates
    [.request (.write .auditLog ⟨[], none, [], [], [], ['a'], 1⟩), .reopen, .compact,
      .request (.write .auditLog ⟨[], none, [], [], [], ['b'], 1⟩), .request (.lookup .auditEvents)] := by
  refine backendsAgree jsonCrates_lawful _ fun q hq ↦ ?_
  simp only [List.mem_cons, ScriptStep.request.injEq, reduceCtorEq, List.not_mem_nil, or_false,
    false_or] at hq
  rcases hq with rfl | rfl | rfl
  · show 1 ≤ FrankenSqliteCache.i64Max
    decide
  · show 1 ≤ FrankenSqliteCache.i64Max
    decide
  · trivial

end FrankenSnowflake.Cache
