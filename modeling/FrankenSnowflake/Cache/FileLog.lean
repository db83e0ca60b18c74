import FrankenSnowflake.Cache.FileCache
import FrankenSnowflake.Foundation.JsonNesting

/-!
# Table logs

What a handle finds in a log of valid lines, and what one operation of a handle
that is alone does to the log.
-/

namespace FrankenSnowflake.Cache

open Foundation

/-- What is documented of `serde_json` and relied on: a line is read back, no
control characters are written, and lines are JSON texts, those written objects. -/
structure Crates.Lawful (E : Crates) : Prop where
  fromStr_toString : ∀ {t : Table} (l : Line t.Record), E.fromStr t (E.toString t l) = some l
  plain : ∀ {t : Table} {l : Line t.Record}, ∀ c ∈ E.toString t l, 0x20 ≤ c.toNat
  head : ∀ {t : Table} (l : Line t.Record), ∃ s, E.toString t l = '{' :: s
  written : ∀ {t : Table} (l : Line t.Record), Json.Derives .value (Utf8.encode (E.toString t l))
  read : ∀ {t : Table} {s : Text} {l : Line t.Record}, E.fromStr t s = some l →
    ∃ w v w', Json.Ws w ∧ Json.Ws w' ∧ Json.Derives .value v ∧ Utf8.encode s = w ++ (v ++ w')

/-! ## Running operations -/

namespace FileM

variable {α β : Type}

@[simp] theorem run_pure (a : α) (c : FileCache) (d : Directory) :
    (pure a : FileM α).run c d = ((.ok a, c), d) := rfl

@[simp] theorem run_get (c : FileCache) (d : Directory) : get.run c d = ((.ok c, c), d) := rfl

@[simp] theorem run_modify (f : FileCache → FileCache) (c : FileCache) (d : Directory) :
    (modify f).run c d = ((.ok (), f c), d) := rfl

@[simp] theorem run_throw (e : CacheError) (c : FileCache) (d : Directory) :
    (throw e : FileM α).run c d = ((.error e, c), d) := rfl

@[simp] theorem run_request (a : FileAction) (c : FileCache) (d : Directory) :
    (request a).run c d = ((.ok (Directory.perform a d).1, c), (Directory.perform a d).2) := rfl

theorem run_bind (x : FileM α) (f : α → FileM β) (c : FileCache) (d : Directory) :
    (x >>= f).run c d = match x.run c d with
      | ((.ok a, c'), d') => (f a).run c' d'
      | ((.error e, c'), d') => ((.error e, c'), d') := by
  change (Program.bind (x c) _).run Directory.perform d = _
  rw [Program.run_bind]
  simp only [run]
  rcases (x c).run Directory.perform d with ⟨⟨r, c'⟩, d'⟩
  cases r <;> rfl

/-- An operation that returns, and what follows it. -/
theorem run_bind_ok {x : FileM α} {f : α → FileM β} {c c' : FileCache} {d d' : Directory} {a : α}
    (h : x.run c d = ((.ok a, c'), d')) : (x >>= f).run c d = (f a).run c' d' := by
  rw [run_bind, h]

/-- An operation that fails ends what it is part of. -/
theorem run_bind_error {x : FileM α} {f : α → FileM β} {c c' : FileCache} {d d' : Directory}
    {e : CacheError} (h : x.run c d = ((.error e, c'), d')) :
    (x >>= f).run c d = ((.error e, c'), d') := by
  rw [run_bind, h]

@[simp] theorem run_attempt (x : FileM α) (c : FileCache) (d : Directory) :
    (attempt x).run c d = ((.ok (x.run c d).1.1, (x.run c d).1.2), (x.run c d).2) := by
  change (Program.bind (x c) _).run Directory.perform d = _
  rw [Program.run_bind]
  rfl

end FileM

variable {E : Crates}

/-! ## Valid lines -/

/-- A line that a load takes, and the record it takes from it. -/
structure ValidLine (E : Crates) (t : Table) (line : Text) (r : t.Record) : Prop where
  newline : '\n' ∉ line
  nonblank : (Unicode.trim (chomp line)).isEmpty = false
  parses : E.fromStr t (chomp line) = some ⟨lineVersion, r⟩
  checks : t.check E r = .ok ()

/-- The lines of a log and its records. -/
abbrev ValidLines (E : Crates) (t : Table) : List Text → List t.Record → Prop :=
  List.Forall₂ (ValidLine E t)

theorem ValidLines.newline {t : Table} {ls : List Text} {rs : List t.Record}
    (h : ValidLines E t ls rs) : ∀ l ∈ ls, '\n' ∉ l := by
  induction h with
  | nil => simp
  | cons hline _ ih => exact List.forall_mem_cons.mpr ⟨hline.newline, ih⟩

/-- A line that starts with a brace is not blank. -/
theorem isEmpty_trim_brace (s : Text) : (Unicode.trim ('{' :: s)).isEmpty = false := by
  have hstart : Unicode.trimStart ('{' :: s) = '{' :: s := rfl
  rw [Unicode.trim, hstart, Bool.eq_false_iff]
  intro hempty
  have hall := List.rdropWhile_eq_nil_iff.mp (List.isEmpty_iff.mp hempty)
  exact absurd (hall '{' List.mem_cons_self) (by decide)

theorem chomp_of_plain {line : Text} (h : ∀ c ∈ line, 0x20 ≤ c.toNat) : chomp line = line := by
  unfold chomp
  split_ifs with hlast
  · exact absurd (h _ (List.mem_of_getLast? hlast)) (by decide)
  · rfl

section Written

variable (hE : E.Lawful) {t : Table} {r : t.Record}
include hE

theorem newline_not_mem_toString (l : Line t.Record) : '\n' ∉ E.toString t l :=
  fun hmem ↦ absurd (hE.plain _ hmem) (by decide)

/-- The line that is appended for a record is valid. -/
theorem validLine_toString (h : t.check E r = .ok ()) :
    ValidLine E t (E.toString t ⟨lineVersion, r⟩) r := by
  obtain ⟨s, hs⟩ := hE.head (⟨lineVersion, r⟩ : Line t.Record)
  have hchomp := chomp_of_plain (hE.plain (t := t) (l := ⟨lineVersion, r⟩))
  refine ⟨newline_not_mem_toString hE _, ?_, ?_, h⟩
  · rw [hchomp, hs]
    exact isEmpty_trim_brace s
  · rw [hchomp]
    exact hE.fromStr_toString _

/-- The lines that are written for records. -/
theorem validLines_toString {rs : List t.Record} (h : ∀ r ∈ rs, t.check E r = .ok ()) :
    ValidLines E t (rs.map fun r ↦ E.toString t ⟨lineVersion, r⟩) rs := by
  induction rs with
  | nil => exact .nil
  | cons r rs ih =>
      obtain ⟨hr, hrs⟩ := List.forall_mem_cons.mp h
      exact .cons (validLine_toString hE hr) (ih hrs)

end Written

theorem flatMap_lineText (t : Table) (rs : List t.Record) :
    rs.flatMap (lineText E t) = unlines (rs.map fun r ↦ E.toString t ⟨lineVersion, r⟩) := by
  rw [unlines, List.flatMap_map]
  rfl

/-! ## Loading -/

/-- Take a record. -/
def takeRecord {σ : Type} (target : Target σ) (t : Table) (s : Loading σ) (r : t.Record) :
    Loading σ :=
  match target t r s.target with
  | (.ok (), σ') => ⟨σ', s.skipped, s.valid + 1⟩
  | (.error _, σ') => ⟨σ', s.skipped + 1, s.valid⟩

theorem loadLine_valid {σ : Type} (target : Target σ) {t : Table} {line : Text} {r : t.Record}
    (h : ValidLine E t line r) (s : Loading σ) :
    loadLine E target t s (chomp line) = takeRecord target t s r := by
  rw [loadLine, h.nonblank, if_neg Bool.false_ne_true, h.parses]
  rfl

theorem foldl_loadLine {σ : Type} (target : Target σ) {t : Table} {ls : List Text}
    {rs : List t.Record} (h : ValidLines E t ls rs) (s : Loading σ) :
    (ls.map chomp).foldl (loadLine E target t) s = rs.foldl (takeRecord target t) s := by
  induction h generalizing s with
  | nil => rfl
  | cons hline _ ih =>
      rw [List.map_cons, List.foldl_cons, List.foldl_cons, loadLine_valid target hline]
      exact ih _

/-- A load takes the complete lines. -/
theorem loadLines_valid {σ : Type} (target : Target σ) {t : Table} {ls : List Text}
    {rs : List t.Record} (h : ValidLines E t ls rs) {torn : Text} (htorn : '\n' ∉ torn)
    (s : Loading σ) :
    loadLines E target t s (unlines ls ++ torn) = rs.foldl (takeRecord target t) s := by
  rw [loadLines, completeLines_append htorn, lines_unlines h.newline, foldl_loadLine target h]

/-- Records go into their table in memory, one after the other. -/
theorem foldl_takeRecord_memory {t : Table} {rs : List t.Record}
    (h : ∀ r ∈ rs, t.check E r = .ok ()) (s : Loading InMemoryCache) :
    rs.foldl (takeRecord (memoryTarget E) t) s =
      ⟨Function.update s.target t (rs.foldl t.put (s.target t)), s.skipped,
        s.valid + rs.length⟩ := by
  induction rs generalizing s with
  | nil =>
      rw [List.foldl_nil, List.foldl_nil, Function.update_eq_self]
      rfl
  | cons r rs ih =>
      obtain ⟨hr, hrs⟩ := List.forall_mem_cons.mp h
      have htake : takeRecord (memoryTarget E) t s r =
          ⟨Function.update s.target t (t.put (s.target t) r), s.skipped, s.valid + 1⟩ := by
        simp only [takeRecord, memoryTarget, InMemoryCache.write, hr]
        rfl
      rw [List.foldl_cons, htake, ih hrs, List.foldl_cons]
      simp only [Function.update_self, Function.update_idem, List.length_cons, Loading.mk.injEq,
        true_and]
      omega

theorem ValidLines.checks {t : Table} {ls : List Text} {rs : List t.Record}
    (h : ValidLines E t ls rs) : ∀ r ∈ rs, t.check E r = .ok () := by
  induction h with
  | nil => simp
  | cons hline _ ih => exact List.forall_mem_cons.mpr ⟨hline.checks, ih⟩

/-! ## Operations of a handle that is alone -/

/-- What a load finds in memory of a table. -/
def recordsOf (t : Table) (rs : List t.Record) : SortedMap t.Key t.Record :=
  rs.foldl t.put .empty

/-- A handle that did not load a table has nothing of it. -/
def FileCache.Lazy (c : FileCache) : Prop := ∀ t, c.loadedTables t = false → c.inner t = .empty

/-- A handle after it loaded a table. -/
def FileCache.load (c : FileCache) (t : Table) (m : SortedMap t.Key t.Record) (count : Nat) :
    FileCache :=
  { c with
    inner := Function.update c.inner t m
    tableLineCounts := Function.update c.tableLineCounts t count
    loadedTables := Function.update c.loadedTables t true }

theorem run_ensureTableLoaded_loaded {t : Table} {c : FileCache} (h : c.loadedTables t = true)
    (d : Directory) : (ensureTableLoaded E t).run c d = ((.ok (), c), d) := by
  unfold ensureTableLoaded
  rw [FileM.run_bind_ok (FileM.run_get c d)]
  simp [h]

section Load

variable {t : Table} {c : FileCache} {d : Directory} (h : c.loadedTables t = false)
include h

/-- A table without a log is empty. -/
theorem run_ensureTableLoaded_absent (hlog : d t = none) :
    (ensureTableLoaded E t).run c d = ((.ok (), c.load t (c.inner t) 0), d) := by
  unfold ensureTableLoaded
  rw [FileM.run_bind_ok (FileM.run_get c d)]
  simp only [h, Bool.false_eq_true, if_false]
  have hload : (loadTable E (memoryTarget E) t c.inner).run c d = ((.ok (0, c.inner), c), d) := by
    unfold loadTable
    rw [FileM.run_bind_ok (FileM.run_request _ c d)]
    simp [Directory.perform, hlog]
  rw [FileM.run_bind_ok hload, FileM.run_modify, FileCache.load, Function.update_eq_self]

/-- A log that is no UTF-8 text cannot be read. -/
theorem run_ensureTableLoaded_garbled {bytes : List UInt8} (hlog : d t = some bytes)
    (hdecode : Utf8.decode bytes = none) :
    (ensureTableLoaded E t).run c d = ((.error (.io "read table log" t.fileName), c), d) := by
  unfold ensureTableLoaded
  rw [FileM.run_bind_ok (FileM.run_get c d)]
  simp only [h, Bool.false_eq_true, if_false]
  refine FileM.run_bind_error ?_
  unfold loadTable
  rw [FileM.run_bind_ok (FileM.run_request _ c d)]
  simp [Directory.perform, hlog, hdecode]

/-- A log is folded into the tables in memory. -/
theorem run_ensureTableLoaded_text {bytes : List UInt8} {content : Text} (hlog : d t = some bytes)
    (hdecode : Utf8.decode bytes = some content) {m : SortedMap t.Key t.Record} {skipped count : Nat}
    (hload : loadLines E (memoryTarget E) t ⟨c.inner, c.skippedLines, 0⟩ content =
      ⟨Function.update c.inner t m, skipped, count⟩) :
    (ensureTableLoaded E t).run c d =
      ((.ok (), { c.load t m count with skippedLines := skipped }), d) := by
  unfold ensureTableLoaded
  rw [FileM.run_bind_ok (FileM.run_get c d)]
  simp only [h, Bool.false_eq_true, if_false]
  have hrun : (loadTable E (memoryTarget E) t c.inner).run c d =
      ((.ok (count, Function.update c.inner t m), { c with skippedLines := skipped }), d) := by
    unfold loadTable
    rw [FileM.run_bind_ok (FileM.run_request _ c d)]
    simp only [Directory.perform, hlog, hdecode]
    rw [FileM.run_bind_ok (FileM.run_get c d), FileM.run_bind_ok (FileM.run_modify _ c d), hload]
    rfl
  rw [FileM.run_bind_ok hrun]
  rfl

end Load

/-- A handle that did not load a table loads the complete lines of its log. -/
theorem run_ensureTableLoaded_valid {t : Table} {c : FileCache} {d : Directory} {ls : List Text}
    {rs : List t.Record} {torn : Text} (h : c.loadedTables t = false) (hempty : c.inner t = .empty)
    (hlines : ValidLines E t ls rs) (htorn : '\n' ∉ torn)
    (hlog : d t = some (Utf8.encode (unlines ls ++ torn))) :
    (ensureTableLoaded E t).run c d = ((.ok (), c.load t (recordsOf t rs) rs.length), d) := by
  refine run_ensureTableLoaded_text h hlog (Utf8.decode_encode _) ?_
  rw [loadLines_valid _ hlines htorn, foldl_takeRecord_memory hlines.checks]
  simp only [hempty, Nat.zero_add]
  rfl

/-- A write to a loaded table, but for compaction. -/
def FileCache.written (c : FileCache) (t : Table) (r : t.Record) : FileCache :=
  { c with
    inner := Function.update c.inner t (t.put (c.inner t) r)
    tableLineCounts := Function.update c.tableLineCounts t (c.tableLineCounts t + 1) }

@[simp] theorem FileCache.written_inner (c : FileCache) (t : Table) (r : t.Record) :
    (c.written t r).inner t = t.put (c.inner t) r := Function.update_self _ _ _

@[simp] theorem FileCache.written_tableLineCounts (c : FileCache) (t : Table) (r : t.Record) :
    (c.written t r).tableLineCounts t = c.tableLineCounts t + 1 := Function.update_self _ _ _

/-- The line that a write appends. -/
def Directory.appended (E : Crates) (d : Directory) (t : Table) (r : t.Record) : Directory :=
  Function.update d t (some ((d t).getD [] ++ Utf8.encode (lineText E t r)))

@[simp] theorem Directory.appended_self (d : Directory) (t : Table) (r : t.Record) :
    d.appended E t r t = some ((d t).getD [] ++ Utf8.encode (lineText E t r)) :=
  Function.update_self _ _ _

/-- The canonical lines of a table in memory. -/
def canonicalBytes (E : Crates) (t : Table) (m : SortedMap t.Key t.Record) : List UInt8 :=
  Utf8.encode (m.values.flatMap (lineText E t))

/-- Whether a write compacts its table. -/
def FileCache.compacts (c : FileCache) (t : Table) : Bool :=
  t.isUpsert && compactsLazily (c.tableLineCounts t) (c.inner t).values.length

theorem run_maybeLazyCompactUpsert (t : Table) (c : FileCache) (d : Directory) :
    (maybeLazyCompactUpsert E t).run c d =
      if compactsLazily (c.tableLineCounts t) (c.inner t).values.length then
        ((.ok (), { c with
            tableLineCounts := Function.update c.tableLineCounts t (c.inner t).values.length }),
          Function.update d t (some (canonicalBytes E t (c.inner t))))
      else ((.ok (), c), d) := by
  unfold maybeLazyCompactUpsert
  rw [FileM.run_bind_ok (FileM.run_get c d)]
  dsimp only
  split_ifs
  · have hrewrite : (rewriteTableAtomic E t (c.inner t).values fun _ ↦ false).run c d =
        ((.ok (), c), Function.update d t (some (canonicalBytes E t (c.inner t)))) := by
      unfold rewriteTableAtomic
      rw [FileM.run_bind_ok (FileM.run_request _ c d)]
      rfl
    rw [FileM.run_bind_ok hrewrite]
    rfl
  · rfl

/-- One write of a handle that has the table. -/
theorem run_write_loaded {t : Table} {c : FileCache} {d : Directory} {r : t.Record}
    (h : c.loadedTables t = true) (hcheck : t.check E r = .ok ()) :
    (write E t r).run c d =
      if (c.written t r).compacts t then
        ((.ok (), { c.written t r with
            tableLineCounts := Function.update (c.written t r).tableLineCounts t
              ((c.written t r).inner t).values.length }),
          Function.update (d.appended E t r) t
            (some (canonicalBytes E t ((c.written t r).inner t))))
      else ((.ok (), c.written t r), d.appended E t r) := by
  have hwrite : c.inner.write E t r = .ok (Function.update c.inner t (t.put (c.inner t) r)) := by
    rw [InMemoryCache.write, hcheck]
    rfl
  have happend : (appendLine E t r).run
      { c with inner := Function.update c.inner t (t.put (c.inner t) r) } d =
      ((.ok (), c.written t r), d.appended E t r) := by
    unfold appendLine
    rw [FileM.run_bind_ok (FileM.run_request _ _ d)]
    rfl
  unfold write
  rw [FileM.run_bind_ok (run_ensureTableLoaded_loaded h d), FileM.run_bind_ok (FileM.run_get c d)]
  simp only [hwrite]
  rw [FileM.run_bind_ok (FileM.run_modify _ c d), FileM.run_bind_ok happend]
  cases hupsert : t.isUpsert with
  | true =>
      simp only [FileCache.compacts, hupsert, Bool.true_and, if_true]
      exact run_maybeLazyCompactUpsert t _ _
  | false =>
      simp only [FileCache.compacts, hupsert, Bool.false_and, Bool.false_eq_true, if_false]
      rfl

theorem run_lookup {l : Lookup} {c c' : FileCache} {d d' : Directory}
    (h : (ensureTableLoaded E l.table).run c d = ((.ok (), c'), d')) :
    (lookup E l).run c d = ((.ok (l.answer c'.inner), c'), d') := by
  unfold lookup
  rw [FileM.run_bind_ok h, FileM.run_bind_ok (FileM.run_get c' d')]
  rfl

theorem run_lookup_error {l : Lookup} {c c' : FileCache} {d d' : Directory} {e : CacheError}
    (h : (ensureTableLoaded E l.table).run c d = ((.error e, c'), d')) :
    (lookup E l).run c d = ((.error e, c'), d') := FileM.run_bind_error h

/-! ## Maps of records -/

/-- Every record is under its own key. -/
def Keyed (t : Table) (m : SortedMap t.Key t.Record) : Prop := ∀ k r, m.get? k = some r → t.key r = k

theorem keyed_empty (t : Table) : Keyed t .empty := fun k r h ↦ by cases h

theorem Keyed.put {t : Table} {m : SortedMap t.Key t.Record} (h : Keyed t m) (r : t.Record) :
    Keyed t (t.put m r) := by
  unfold Table.put
  split_ifs
  · intro k r' hk
    rw [SortedMap.get?_insert] at hk
    split_ifs at hk with heq
    · rw [← Option.some.inj hk, heq]
    · exact h k r' hk
  · exact h

theorem keyed_recordsOf (t : Table) (rs : List t.Record) : Keyed t (recordsOf t rs) := by
  suffices ∀ m, Keyed t m → Keyed t (rs.foldl t.put m) from this _ (keyed_empty t)
  induction rs with
  | nil => exact fun m hm ↦ hm
  | cons r rs ih => exact fun m hm ↦ ih _ (hm.put r)

theorem recordsOf_append (t : Table) (rs rs' : List t.Record) :
    recordsOf t (rs ++ rs') = rs'.foldl t.put (recordsOf t rs) := List.foldl_append

theorem get?_put (t : Table) (m : SortedMap t.Key t.Record) (r : t.Record) (k : t.Key) :
    (t.put m r).get? k =
      if k = t.key r then if t.lastWriteWins then some r else (m.get? k).or (some r)
      else m.get? k := by
  unfold Table.put
  cases hlast : t.lastWriteWins with
  | true => simp only [Bool.true_or, if_true, SortedMap.get?_insert]
  | false =>
      simp only [Bool.false_or, Bool.false_eq_true, if_false]
      cases hget : m.get? (t.key r) with
      | none =>
          simp only [Option.isNone_none, if_true, SortedMap.get?_insert]
          by_cases hk : k = t.key r
          · subst hk
            simp [hget]
          · simp [hk]
      | some r' =>
          simp only [Option.isNone_some, Bool.false_eq_true, if_false]
          by_cases hk : k = t.key r
          · subst hk
            simp [hget]
          · simp [hk]

/-- Of the records under one key, the first or the last one counts. -/
theorem get?_foldl_put (t : Table) (rs : List t.Record) (m : SortedMap t.Key t.Record) (k : t.Key) :
    (rs.foldl t.put m).get? k =
      if t.lastWriteWins then (rs.reverse.find? (t.key · = k)).or (m.get? k)
      else (m.get? k).or (rs.find? (t.key · = k)) := by
  induction rs generalizing m with
  | nil => simp
  | cons r rs ih =>
      rw [List.foldl_cons, ih, get?_put, List.reverse_cons, List.find?_append, List.find?_cons,
        List.find?_cons]
      by_cases hk : t.key r = k
      · subst hk
        cases t.lastWriteWins <;> simp
      · simp [hk, Ne.symm hk]

theorem find?_eq_some_iff_of_nodup {t : Table} {rs : List t.Record} (h : (rs.map t.key).Nodup)
    {k : t.Key} {r : t.Record} : rs.find? (t.key · = k) = some r ↔ r ∈ rs ∧ t.key r = k := by
  constructor
  · intro hfind
    exact ⟨List.mem_of_find?_eq_some hfind, by simpa using List.find?_some hfind⟩
  · rintro ⟨hmem, rfl⟩
    have hsome : (rs.find? (t.key · = t.key r)).isSome := List.find?_isSome.mpr ⟨r, hmem, by simp⟩
    obtain ⟨r', hr'⟩ := Option.isSome_iff_exists.mp hsome
    have hkey : t.key r' = t.key r := by simpa using List.find?_some hr'
    rw [hr', List.inj_on_of_nodup_map h (List.mem_of_find?_eq_some hr') hmem hkey]

theorem Keyed.map_key {t : Table} {m : SortedMap t.Key t.Record} (h : Keyed t m) :
    m.values.map t.key = m.keys := by
  rw [SortedMap.values, SortedMap.keys, List.map_map]
  refine List.map_congr_left fun e he ↦ ?_
  exact h e.1 e.2 (SortedMap.mem_entries.mp he)

theorem Keyed.nodup {t : Table} {m : SortedMap t.Key t.Record} (h : Keyed t m) :
    (m.values.map t.key).Nodup := by
  rw [h.map_key]
  exact m.sorted_keys.imp ne_of_lt

theorem Keyed.mem_values {t : Table} {m : SortedMap t.Key t.Record} (h : Keyed t m)
    {r : t.Record} : r ∈ m.values ↔ m.get? (t.key r) = some r := by
  rw [SortedMap.mem_values]
  constructor
  · rintro ⟨k, hk⟩
    rwa [h k r hk]
  · exact fun hr ↦ ⟨_, hr⟩

/-- The records of distinct keys are all found. -/
theorem get?_recordsOf_of_nodup {t : Table} {rs : List t.Record} (h : (rs.map t.key).Nodup)
    {k : t.Key} {r : t.Record} :
    (recordsOf t rs).get? k = some r ↔ r ∈ rs ∧ t.key r = k := by
  have hreverse : (rs.reverse.map t.key).Nodup := by
    rw [List.map_reverse]
    exact List.nodup_reverse.mpr h
  rw [recordsOf, get?_foldl_put, SortedMap.get?_empty, Option.or_none, Option.none_or]
  split_ifs
  · rw [find?_eq_some_iff_of_nodup hreverse, List.mem_reverse]
  · exact find?_eq_some_iff_of_nodup h

/-- The canonical records of a table load as the table. -/
theorem recordsOf_values {t : Table} {m : SortedMap t.Key t.Record} (h : Keyed t m) :
    recordsOf t m.values = m := by
  refine SortedMap.ext fun k ↦ Option.ext fun r ↦ ?_
  rw [get?_recordsOf_of_nodup h.nodup, h.mem_values]
  constructor
  · rintro ⟨hr, rfl⟩
    exact hr
  · intro hk
    rw [h k r hk]
    exact ⟨hk, rfl⟩

/-- Every record in the table passes its check. -/
def Checked (E : Crates) (t : Table) (m : SortedMap t.Key t.Record) : Prop :=
  ∀ r ∈ m.values, t.check E r = .ok ()

theorem checked_recordsOf {t : Table} {rs : List t.Record} (h : ∀ r ∈ rs, t.check E r = .ok ()) :
    Checked E t (recordsOf t rs) := by
  intro r hr
  obtain ⟨k, hk⟩ := SortedMap.mem_values.mp hr
  rw [recordsOf, get?_foldl_put, SortedMap.get?_empty, Option.or_none, Option.none_or] at hk
  split_ifs at hk
  · exact h r (List.mem_reverse.mp (List.mem_of_find?_eq_some hk))
  · exact h r (List.mem_of_find?_eq_some hk)

end FrankenSnowflake.Cache
