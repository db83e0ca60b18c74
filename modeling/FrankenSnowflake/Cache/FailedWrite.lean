import FrankenSnowflake.Cache.FileStore
import FrankenSnowflake.Cache.TornTail

/-!
# Writes that fail

A write stores its record in memory before it appends the line to the log, so a
line that cannot be appended leaves a record that only this handle has.  The
bytes that did get to the log are the start of a line, which the next load
ignores, if they are whole characters.
-/

namespace FrankenSnowflake.Cache

open Foundation

/-! ## Faults -/

/-- Why a line is not appended: it cannot be serialized, the log cannot be opened,
or only some bytes in front of the line's newline are written. -/
inductive LineFault where
  | serialize
  | openLog
  | write (count : Nat)
deriving DecidableEq, Repr

variable (E : Crates)

namespace LineFault

variable (t : Table) (r : t.Record)

/-- What a fault makes of the log; opening it creates it. -/
def log (log : Option (List UInt8)) : LineFault → Option (List UInt8)
  | serialize | openLog => log
  | write count => some (log.getD [] ++ (Utf8.encode (E.toString t ⟨lineVersion, r⟩)).take count)

/-- The bytes that got to the log. -/
def bytes : LineFault → List UInt8
  | serialize | openLog => []
  | write count => (Utf8.encode (E.toString t ⟨lineVersion, r⟩)).take count

def error : LineFault → CacheError
  | serialize => .invalidRow t.fileName .notSerialized
  | openLog => .io "open table log for append" t.fileName
  | write _ => .io "append table log" t.fileName

end LineFault

namespace FileStore

/-! ## Writes -/

/-- Load the table, store the record in memory, and go on with its log. -/
def writeThrough (t : Table) (r : t.Record) (log : FileStore → CacheResult Unit × FileStore)
    (s : FileStore) : CacheResult Unit × FileStore :=
  match perform (ensureTableLoaded E t) s with
  | (.error e, s) => (.error e, s)
  | (.ok (), s) =>
      match s.handle.inner.write E t r with
      | .error e => (.error e, s)
      | .ok inner => log { s with handle := { s.handle with inner } }

/-- The append and the compaction of a write. -/
def logLine (t : Table) (r : t.Record) : FileM Unit := do
  appendLine E t r
  if t.isUpsert then maybeLazyCompactUpsert E t else return ()

/-- A write whose line is appended. -/
theorem perform_write (t : Table) (r : t.Record) (s : FileStore) :
    perform (Cache.write E t r) s = writeThrough E t r (perform (logLine E t r)) s := by
  unfold Cache.write writeThrough
  rw [perform_bind]
  rcases perform (ensureTableLoaded E t) s with ⟨loaded, s'⟩
  cases loaded with
  | error e => rfl
  | ok a =>
      have hget : perform FileM.get s' = (.ok s'.handle, s') := rfl
      dsimp only
      rw [perform_bind_ok hget]
      cases s'.handle.inner.write E t r with
      | error e => rfl
      | ok inner =>
          have hmodify : perform (FileM.modify fun c ↦ { c with inner }) s' =
              (.ok (), { s' with handle := { s'.handle with inner } }) := rfl
          dsimp only
          rw [perform_bind_ok hmodify]
          rfl

/-- A write whose line meets a fault. -/
def failedWrite (t : Table) (r : t.Record) (fault : LineFault) : FileStore → CacheResult Unit × FileStore :=
  writeThrough E t r fun s ↦
    (.error (fault.error t), { s with logs := Function.update s.logs t (fault.log E t r (s.logs t)) })

theorem failedWrite_error (t : Table) (r : t.Record) (fault : LineFault) (s : FileStore) :
    ∃ e, (failedWrite E t r fault s).1 = .error e := by
  unfold failedWrite writeThrough
  split
  · exact ⟨_, rfl⟩
  · split
    · exact ⟨_, rfl⟩
    · exact ⟨_, rfl⟩

/-! ## Lookups -/

/-- What a lookup answers. -/
def answer (s : FileStore) (l : Lookup) : CacheResult Answer := (perform (lookup E l) s).1

/-- A handle after lookups. -/
def lookups (s : FileStore) (ls : List Lookup) : FileStore :=
  ls.foldl (fun s l ↦ (perform (lookup E l) s).2) s

/-- Lookups, after any others, answer as they did before and as a handle does that
is opened anew. -/
structure LeavesStore (before after : FileStore) : Prop where
  same : ∀ ls l, answer E (lookups E after ls) l = answer E before l
  fresh : ∀ ls l, answer E (lookups E after ls) l = answer E after.reopen l

/-- The handle answers as one does that is opened anew. -/
def InStep (s : FileStore) : Prop := ∀ l, answer E s l = answer E s.reopen l

end FileStore

/-! ## The table that a handle has or loads -/

/-- A line of a log, whatever it is. -/
def takeLine (t : Table) (m : SortedMap t.Key t.Record) (line : Text) : SortedMap t.Key t.Record :=
  if (Unicode.trim line).isEmpty then m
  else
    match E.fromStr t line with
    | some ⟨v, r⟩ =>
        if v = lineVersion then
          match t.check E r with
          | .ok () => t.put m r
          | .error _ => m
        else m
    | none => m

/-- What a load makes of a table. -/
def loadLog (t : Table) (m : SortedMap t.Key t.Record) :
    Option (List UInt8) → CacheResult (SortedMap t.Key t.Record)
  | none => .ok m
  | some bytes =>
      match Utf8.decode bytes with
      | none => .error (.io "read table log" t.fileName)
      | some content => .ok ((lines (completeLines content)).foldl (takeLine E t) m)

namespace FileStore

/-- The table of a handle, as it has it or loads it. -/
def tableOf (s : FileStore) (t : Table) : CacheResult (SortedMap t.Key t.Record) :=
  if s.handle.loadedTables t then .ok (s.handle.inner t)
  else loadLog E t (s.handle.inner t) (s.logs t)

end FileStore

variable {E} {t : Table}

theorem loadLine_memory (s : Loading InMemoryCache) (line : Text) :
    ∃ skipped valid, loadLine E (memoryTarget E) t s line =
      ⟨Function.update s.target t (takeLine E t (s.target t) line), skipped, valid⟩ := by
  have hkept : Function.update s.target t (s.target t) = s.target := Function.update_eq_self _ _
  unfold loadLine takeLine
  split_ifs
  · exact ⟨s.skipped, s.valid, by rw [hkept]⟩
  · rcases E.fromStr t line with - | ⟨v, r⟩
    · exact ⟨s.skipped + 1, s.valid, by rw [hkept]⟩
    · dsimp only
      split_ifs
      · unfold memoryTarget InMemoryCache.write
        cases t.check E r with
        | error e => exact ⟨s.skipped + 1, s.valid, by rw [hkept]; rfl⟩
        | ok a => exact ⟨s.skipped, s.valid + 1, rfl⟩
      · exact ⟨s.skipped + 1, s.valid, by rw [hkept]⟩

theorem foldl_loadLine_memory (ls : List Text) (s : Loading InMemoryCache) :
    ∃ skipped valid, ls.foldl (loadLine E (memoryTarget E) t) s =
      ⟨Function.update s.target t (ls.foldl (takeLine E t) (s.target t)), skipped, valid⟩ := by
  induction ls generalizing s with
  | nil => exact ⟨s.skipped, s.valid, by rw [List.foldl_nil, List.foldl_nil, Function.update_eq_self]⟩
  | cons line ls ih =>
      obtain ⟨skipped, valid, hline⟩ := loadLine_memory (E := E) (t := t) s line
      obtain ⟨skipped', valid', hrest⟩ := ih ⟨_, skipped, valid⟩
      refine ⟨skipped', valid', ?_⟩
      rw [List.foldl_cons, List.foldl_cons, hline, hrest]
      dsimp only
      rw [Function.update_self, Function.update_idem]

theorem Keyed.takeLine {m : SortedMap t.Key t.Record} (h : Keyed t m) (line : Text) :
    Keyed t (takeLine E t m line) := by
  unfold Cache.takeLine
  split_ifs
  · exact h
  · rcases E.fromStr t line with - | ⟨v, r⟩
    · exact h
    · dsimp only
      split_ifs
      · cases t.check E r with
        | error e => exact h
        | ok a => exact h.put r
      · exact h

theorem Keyed.loadLog {m m' : SortedMap t.Key t.Record} {log : Option (List UInt8)} (h : Keyed t m)
    (hlog : loadLog E t m log = .ok m') : Keyed t m' := by
  unfold Cache.loadLog at hlog
  split at hlog
  · exact Except.ok.inj hlog ▸ h
  · split at hlog
    · cases hlog
    · rw [← Except.ok.inj hlog]
      exact List.foldlRecOn _ _ h fun m hm line _ ↦ hm.takeLine line

namespace FileStore

variable {s : FileStore}

theorem perform_ensureTableLoaded_ok {m : SortedMap t.Key t.Record} (h : tableOf E s t = .ok m) :
    ∃ s', perform (ensureTableLoaded E t) s = (.ok (), s') ∧ s'.logs = s.logs ∧
      s'.handle.inner = Function.update s.handle.inner t m ∧
        s'.handle.loadedTables = Function.update s.handle.loadedTables t true := by
  unfold tableOf at h
  cases hloaded : s.handle.loadedTables t with
  | true =>
      rw [hloaded, if_pos rfl] at h
      refine ⟨s, perform_of_run (run_ensureTableLoaded_loaded hloaded s.logs), rfl, ?_, ?_⟩
      · rw [← Except.ok.inj h, Function.update_eq_self]
      · rw [← hloaded, Function.update_eq_self]
  | false =>
      rw [hloaded, if_neg Bool.false_ne_true] at h
      cases hlog : s.logs t with
      | none =>
          rw [hlog] at h
          rw [← Except.ok.inj h]
          exact ⟨_, perform_of_run (run_ensureTableLoaded_absent hloaded hlog), rfl, rfl, rfl⟩
      | some bytes =>
          rw [hlog, loadLog] at h
          cases hdecode : Utf8.decode bytes with
          | none =>
              rw [hdecode] at h
              cases h
          | some content =>
              rw [hdecode] at h
              obtain ⟨skipped, valid, hload⟩ := foldl_loadLine_memory (E := E) (t := t)
                (lines (completeLines content)) ⟨s.handle.inner, s.handle.skippedLines, 0⟩
              rw [Except.ok.inj h] at hload
              exact ⟨_, perform_of_run (run_ensureTableLoaded_text hloaded hlog hdecode hload),
                rfl, rfl, rfl⟩

theorem perform_ensureTableLoaded_error {e : CacheError} (h : tableOf E s t = .error e) :
    perform (ensureTableLoaded E t) s = (.error e, s) := by
  unfold tableOf at h
  cases hloaded : s.handle.loadedTables t with
  | true =>
      rw [hloaded, if_pos rfl] at h
      cases h
  | false =>
      rw [hloaded, if_neg Bool.false_ne_true] at h
      cases hlog : s.logs t with
      | none =>
          rw [hlog] at h
          cases h
      | some bytes =>
          rw [hlog, loadLog] at h
          cases hdecode : Utf8.decode bytes with
          | none =>
              rw [hdecode] at h
              rw [← Except.error.inj h]
              exact perform_of_run (run_ensureTableLoaded_garbled hloaded hlog hdecode)
          | some content =>
              rw [hdecode] at h
              cases h

/-- A lookup asks the table that the handle has or loads. -/
theorem answer_eq (s : FileStore) (l : Lookup) :
    answer E s l =
      (tableOf E s l.table).map fun m ↦ l.answer (Function.update InMemoryCache.new l.table m) := by
  unfold answer Cache.lookup
  cases h : tableOf E s l.table with
  | error e =>
      rw [perform_bind, perform_ensureTableLoaded_error h]
      rfl
  | ok m =>
      obtain ⟨s', hperform, -, hinner, -⟩ := perform_ensureTableLoaded_ok h
      have hget : perform FileM.get s' = (.ok s'.handle, s') := rfl
      rw [perform_bind_ok hperform, perform_bind_ok hget]
      refine congrArg Except.ok (l.answer_congr ?_)
      rw [hinner, Function.update_self, Function.update_self]

/-- What a handle has of a table depends on the handle's and the log's part. -/
theorem tableOf_congr {s' : FileStore} (hloaded : s'.handle.loadedTables t = s.handle.loadedTables t)
    (hinner : s'.handle.inner t = s.handle.inner t) (hlogs : s'.logs t = s.logs t) :
    tableOf E s' t = tableOf E s t := by
  rw [tableOf, tableOf, hloaded, hinner, hlogs]

theorem tableOf_loaded {m : SortedMap t.Key t.Record} {s' : FileStore} (h : tableOf E s t = .ok m)
    (hlogs : s'.logs = s.logs) (hinner : s'.handle.inner = Function.update s.handle.inner t m)
    (hloaded : s'.handle.loadedTables = Function.update s.handle.loadedTables t true) (t' : Table) :
    tableOf E s' t' = tableOf E s t' := by
  by_cases htt : t' = t
  · subst htt
    rw [h, tableOf, hloaded, hinner, Function.update_self, Function.update_self, if_pos rfl]
  · refine tableOf_congr ?_ ?_ (by rw [hlogs])
    · rw [hloaded, Function.update_of_ne htt]
    · rw [hinner, Function.update_of_ne htt]

/-- Lookups do not change the tables. -/
theorem tableOf_lookup (l : Lookup) (s : FileStore) (t : Table) :
    tableOf E (perform (lookup E l) s).2 t = tableOf E s t := by
  unfold Cache.lookup
  cases h : tableOf E s l.table with
  | error e => rw [perform_bind, perform_ensureTableLoaded_error h]
  | ok m =>
      obtain ⟨s', hperform, hlogs, hinner, hloaded⟩ := perform_ensureTableLoaded_ok h
      have hget : perform FileM.get s' = (.ok s'.handle, s') := rfl
      rw [perform_bind_ok hperform, perform_bind_ok hget]
      exact tableOf_loaded h hlogs hinner hloaded t

theorem answer_lookups (s : FileStore) (ls : List Lookup) (l : Lookup) :
    answer E (lookups E s ls) l = answer E s l := by
  unfold lookups
  induction ls generalizing s with
  | nil => rfl
  | cons l' ls ih => rw [List.foldl_cons, ih, answer_eq, answer_eq, tableOf_lookup]

/-- Later lookups are as good as the first. -/
theorem leavesStore_iff_answer {before after : FileStore} :
    LeavesStore E before after ↔
      ∀ l, answer E after l = answer E before l ∧ answer E after l = answer E after.reopen l := by
  constructor
  · intro h l
    exact ⟨h.same [] l, h.fresh [] l⟩
  · intro h
    refine ⟨fun ls l ↦ ?_, fun ls l ↦ ?_⟩
    · rw [answer_lookups]
      exact (h l).1
    · rw [answer_lookups]
      exact (h l).2

/-- Where the tables and the logs are as before, a handle that was in step is. -/
theorem leavesStore_of_unchanged {s' : FileStore} (htables : ∀ t, tableOf E s' t = tableOf E s t)
    (hlogs : s'.logs = s.logs) : LeavesStore E s s' ↔ InStep E s := by
  have hanswer (l : Lookup) : answer E s' l = answer E s l := by
    rw [answer_eq, answer_eq, htables]
  have hreopen : s'.reopen = s.reopen := by rw [reopen, reopen, hlogs]
  rw [leavesStore_iff_answer, InStep]
  refine forall_congr' fun l ↦ ?_
  rw [hanswer, hreopen]
  exact and_iff_right rfl

end FileStore

/-! ## The start of a line -/

theorem completeLines_append_of_notMem {content tail : Text} (h : '\n' ∉ tail) :
    completeLines (content ++ tail) = completeLines content := by
  have htail : ∀ c ∈ tail.reverse, decide (c ≠ '\n') = true := by
    intro c hc
    rw [decide_eq_true_eq]
    rintro rfl
    exact h (List.mem_reverse.mp hc)
  rw [completeLines, completeLines, List.rdropWhile, List.reverse_append,
    List.dropWhile_append_of_pos htail]
  rfl

theorem isUTF8FirstByte_take (line : Text) (n : Nat) :
    ∀ b ∈ ((Utf8.encode line).take n).head?, b.IsUTF8FirstByte := by
  cases n with
  | zero => exact nofun
  | succ n =>
      cases line with
      | nil => exact nofun
      | cons c line =>
          intro b hb
          rw [List.head?_take, if_neg (Nat.succ_ne_zero n), Utf8.encode_cons] at hb
          exact Utf8.isUTF8FirstByte_head b hb

/-- A log that ends with the start of a text is a text up to there. -/
theorem decode_append_take {bytes : List UInt8} {line : Text} {n : Nat} {content : Text}
    (h : Utf8.decode (bytes ++ (Utf8.encode line).take n) = some content) :
    ∃ front tail, content = front ++ tail ∧ Utf8.decode bytes = some front ∧
      Utf8.decode ((Utf8.encode line).take n) = some tail := by
  obtain ⟨front, tail, rfl, hfront, htail⟩ :=
    Utf8.encode_eq_append (Utf8.decode_eq_some.mp h).symm (isUTF8FirstByte_take line n)
  exact ⟨front, tail, rfl, Utf8.decode_eq_some.mpr hfront.symm, Utf8.decode_eq_some.mpr htail.symm⟩

theorem newline_notMem_of_take {line tail : Text} {n : Nat} (hline : '\n' ∉ line)
    (htail : Utf8.decode ((Utf8.encode line).take n) = some tail) : '\n' ∉ tail := by
  intro hmem
  have hbyte : (0x0a : UInt8) ∈ Utf8.encode tail := (Utf8.mem_encode_ascii (by decide)).mpr hmem
  rw [← Utf8.decode_eq_some.mp htail] at hbyte
  exact hline ((Utf8.mem_encode_ascii (by decide)).mp (List.mem_of_mem_take hbyte))

/-- Whole characters of a line that is not complete are not loaded. -/
theorem loadLog_append {line : Text} (hline : '\n' ∉ line) {n : Nat} {tail : Text}
    (htail : Utf8.decode ((Utf8.encode line).take n) = some tail) (m : SortedMap t.Key t.Record)
    (bytes : List UInt8) :
    loadLog E t m (some (bytes ++ (Utf8.encode line).take n)) = loadLog E t m (some bytes) := by
  unfold loadLog
  dsimp only
  cases hbytes : Utf8.decode bytes with
  | some content =>
      rw [Utf8.decode_eq_some.mp hbytes, Utf8.decode_append, htail, Option.map_some]
      dsimp only
      rw [completeLines_append_of_notMem (newline_notMem_of_take hline htail)]
  | none =>
      cases hwhole : Utf8.decode (bytes ++ (Utf8.encode line).take n) with
      | none => rfl
      | some content =>
          obtain ⟨front, tail, -, hfront, -⟩ := decode_append_take hwhole
          cases hbytes.symm.trans hfront

/-- The part of a character makes a log unreadable. -/
theorem loadLog_append_none {line : Text} {n : Nat}
    (htail : Utf8.decode ((Utf8.encode line).take n) = none) (m : SortedMap t.Key t.Record)
    (bytes : List UInt8) :
    loadLog E t m (some (bytes ++ (Utf8.encode line).take n)) =
      .error (.io "read table log" t.fileName) := by
  unfold loadLog
  dsimp only
  cases hwhole : Utf8.decode (bytes ++ (Utf8.encode line).take n) with
  | none => rfl
  | some content =>
      obtain ⟨-, tail, -, -, hsome⟩ := decode_append_take hwhole
      cases htail.symm.trans hsome

/-- A table is loaded as it was before the fault, if whole characters got to its
log. -/
theorem loadLog_fault (hE : E.Lawful) (r : t.Record) {fault : LineFault}
    (hbytes : (Utf8.decode (fault.bytes E t r)).isSome) (m : SortedMap t.Key t.Record)
    (log : Option (List UInt8)) : loadLog E t m (fault.log E t r log) = loadLog E t m log := by
  cases fault with
  | serialize | openLog => rfl
  | write count =>
      obtain ⟨tail, htail⟩ := Option.isSome_iff_exists.mp hbytes
      have hline := newline_not_mem_toString hE (⟨lineVersion, r⟩ : Line t.Record)
      refine (loadLog_append hline htail m (log.getD [])).trans ?_
      cases log with
      | none => rfl
      | some bytes => rfl

theorem loadLog_fault_none (r : t.Record) {fault : LineFault}
    (hbytes : Utf8.decode (fault.bytes E t r) = none) (m : SortedMap t.Key t.Record)
    (log : Option (List UInt8)) :
    loadLog E t m (fault.log E t r log) = .error (.io "read table log" t.fileName) := by
  cases fault with
  | serialize | openLog => cases hbytes
  | write count => exact loadLog_append_none hbytes m (log.getD [])

/-! ## Failed writes -/

namespace FileStore

variable {s : FileStore} {r : t.Record} {fault : LineFault}

/-- If the record is stored in memory, it makes no difference there and whole
characters of its line got to the log, or no lookup reads its table. -/
def Unseen (E : Crates) (s : FileStore) (t : Table) (r : t.Record) (fault : LineFault) : Prop :=
  ∀ m, tableOf E s t = .ok m → t.check E r = .ok () →
    t = .replayBundles ∨ t.put m r = m ∧ (Utf8.decode (fault.bytes E t r)).isSome

/-- A write that fails before its record is stored. -/
theorem failedWrite_refused (h : ∀ m, tableOf E s t = .ok m → t.check E r ≠ .ok ()) :
    (∀ t', tableOf E (failedWrite E t r fault s).2 t' = tableOf E s t') ∧
      (failedWrite E t r fault s).2.logs = s.logs := by
  unfold failedWrite writeThrough
  cases htable : tableOf E s t with
  | error e =>
      rw [perform_ensureTableLoaded_error htable]
      exact ⟨fun _ ↦ rfl, rfl⟩
  | ok m =>
      obtain ⟨s', hperform, hlogs, hinner, hloaded⟩ := perform_ensureTableLoaded_ok htable
      cases hcheck : t.check E r with
      | ok a => exact absurd hcheck (h m htable)
      | error e =>
          rw [hperform]
          dsimp only
          rw [InMemoryCache.write, hcheck]
          exact ⟨tableOf_loaded htable hlogs hinner hloaded, hlogs⟩

/-- A write that stores its record and does not append its line. -/
theorem failedWrite_stored {m : SortedMap t.Key t.Record} (htable : tableOf E s t = .ok m)
    (hcheck : t.check E r = .ok ()) :
    ∃ s', (failedWrite E t r fault s).2 = s' ∧ tableOf E s' t = .ok (t.put m r) ∧
      (∀ t' ≠ t, tableOf E s' t' = tableOf E s t') ∧
        s'.logs = Function.update s.logs t (fault.log E t r (s.logs t)) := by
  obtain ⟨s', hperform, hlogs, hinner, hloaded⟩ := perform_ensureTableLoaded_ok htable
  refine ⟨_, rfl, ?_⟩
  unfold failedWrite writeThrough
  rw [hperform]
  dsimp only
  rw [InMemoryCache.write, hcheck]
  refine ⟨?_, fun t' ht' ↦ ?_, ?_⟩
  · change tableOf E ⟨_, _⟩ t = _
    unfold tableOf
    dsimp only
    rw [hloaded, Function.update_self, if_pos rfl, Function.update_self, hinner,
      Function.update_self]
  · refine tableOf_congr ?_ ?_ ?_
    · exact (congrFun hloaded t').trans (Function.update_of_ne ht' _ _)
    · refine (Function.update_of_ne ht' _ _).trans ?_
      rw [hinner, Function.update_of_ne ht']
    · refine (Function.update_of_ne ht' _ _).trans ?_
      rw [hlogs]
  · rw [← hlogs]
    rfl

theorem exists_lookup (h : t ≠ .replayBundles) : ∃ l : Lookup, l.table = t := by
  cases t with
  | profiles => exact ⟨.profiles, rfl⟩
  | catalogSnapshots => exact ⟨.catalogSnapshot [], rfl⟩
  | datasetManifests => exact ⟨.datasetIds, rfl⟩
  | queryPlans => exact ⟨.queryPlan [], rfl⟩
  | queryReceipts => exact ⟨.queryReceipt [], rfl⟩
  | partitionMetadata => exact ⟨.partitionsForReceipt [], rfl⟩
  | exports => exact ⟨.export [], rfl⟩
  | costHistory => exact ⟨.costHistoryForProfile [], rfl⟩
  | replayBundles => exact absurd rfl h
  | auditLog => exact ⟨.auditEvents, rfl⟩

theorem table_ne_replayBundles (l : Lookup) : l.table ≠ .replayBundles := by
  cases l <;> exact nofun

theorem tableOf_reopen (s : FileStore) (t : Table) :
    tableOf E s.reopen t = loadLog E t .empty (s.logs t) := rfl

theorem keyed_tableOf (hkeyed : ∀ t, Keyed t (s.handle.inner t)) {m : SortedMap t.Key t.Record}
    (h : tableOf E s t = .ok m) : Keyed t m := by
  unfold tableOf at h
  split_ifs at h
  · exact Except.ok.inj h ▸ hkeyed t
  · exact (hkeyed t).loadLog h

theorem leavesStore_of_unseen (hE : E.Lawful) (hstep : InStep E s) (h : Unseen E s t r fault) :
    LeavesStore E s (failedWrite E t r fault s).2 := by
  by_cases hstored : ∃ m, tableOf E s t = .ok m ∧ t.check E r = .ok ()
  · obtain ⟨m, htable, hcheck⟩ := hstored
    obtain ⟨s', hs', hself, hother, hlogs⟩ := failedWrite_stored htable hcheck
    rw [hs', leavesStore_iff_answer]
    intro l
    -- the handle has the table it had, and the logs hold what they held
    have htables : tableOf E s' l.table = tableOf E s l.table ∧
        tableOf E s'.reopen l.table = tableOf E s.reopen l.table := by
      rw [tableOf_reopen, tableOf_reopen, hlogs]
      by_cases hl : l.table = t
      · rcases h m htable hcheck with hbundles | ⟨hput, hbytes⟩
        · exact absurd (hl.trans hbundles) (table_ne_replayBundles l)
        · subst hl
          rw [hself, htable, hput, Function.update_self, loadLog_fault hE r hbytes]
          exact ⟨rfl, rfl⟩
      · rw [hother _ hl, Function.update_of_ne hl]
        exact ⟨rfl, rfl⟩
    have hbefore := hstep l
    rw [answer_eq, answer_eq] at hbefore
    rw [answer_eq, answer_eq, answer_eq, htables.1, htables.2]
    exact ⟨rfl, hbefore⟩
  · obtain ⟨htables, hlogs⟩ := failedWrite_refused
      fun m hm hcheck ↦ hstored ⟨m, hm, hcheck⟩
    exact (leavesStore_of_unchanged htables hlogs).mpr hstep

theorem unseen_of_leavesStore (hE : E.Lawful) (hkeyed : ∀ t, Keyed t (s.handle.inner t))
    (h : LeavesStore E s (failedWrite E t r fault s).2) :
    InStep E s ∧ Unseen E s t r fault := by
  by_cases hstored : ∃ m, tableOf E s t = .ok m ∧ t.check E r = .ok ()
  · obtain ⟨m, htable, hcheck⟩ := hstored
    obtain ⟨s', hs', hself, hother, hlogs⟩ := failedWrite_stored htable hcheck
    rw [hs', leavesStore_iff_answer] at h
    -- a lookup of the table finds it, so whole characters got to the log
    have hbytes (l : Lookup) (hl : l.table = t) : (Utf8.decode (fault.bytes E t r)).isSome := by
      cases hdecode : Utf8.decode (fault.bytes E t r) with
      | some tail => rfl
      | none =>
          subst hl
          have hfresh := (h l).2
          rw [answer_eq, answer_eq, hself, tableOf_reopen, hlogs, Function.update_self,
            loadLog_fault_none r hdecode] at hfresh
          cases hfresh
    constructor
    · intro l
      obtain ⟨hsame, hfresh⟩ := h l
      rw [← hsame, hfresh, answer_eq, answer_eq, tableOf_reopen, tableOf_reopen, hlogs]
      by_cases hl : l.table = t
      · subst hl
        rw [Function.update_self, loadLog_fault hE r (hbytes l rfl)]
      · rw [Function.update_of_ne hl]
    · intro m' hm' _
      obtain rfl : m = m' := Except.ok.inj (htable.symm.trans hm')
      by_cases hbundles : t = .replayBundles
      · exact .inl hbundles
      · obtain ⟨l, hl⟩ := exists_lookup hbundles
        refine .inr ⟨?_, hbytes l hl⟩
        have hm := keyed_tableOf hkeyed htable
        have hanswers (l : Lookup) (hl : l.table = t) :
            l.answer (Function.update InMemoryCache.new t (t.put m r)) =
              l.answer (Function.update InMemoryCache.new t m) := by
          subst hl
          have hanswer := (h l).1
          rw [answer_eq, answer_eq, hself, htable] at hanswer
          exact Except.ok.inj hanswer
        have hsame := eq_of_answers hbundles (by rw [Function.update_self]; exact hm.put r)
          (by rw [Function.update_self]; exact hm) hanswers
        rwa [Function.update_self, Function.update_self] at hsame
  · obtain ⟨htables, hlogs⟩ := failedWrite_refused
      fun m hm hcheck ↦ hstored ⟨m, hm, hcheck⟩
    refine ⟨(leavesStore_of_unchanged htables hlogs).mp h, fun m hm hcheck ↦ ?_⟩
    exact absurd ⟨m, hm, hcheck⟩ hstored

/-- A failed write leaves the store as it was iff the handle was in step with its
logs and the record, if it was stored, cannot be seen. -/
theorem failedWrite_leavesStore_iff (hE : E.Lawful) (hkeyed : ∀ t, Keyed t (s.handle.inner t)) :
    LeavesStore E s (failedWrite E t r fault s).2 ↔ InStep E s ∧ Unseen E s t r fault :=
  ⟨unseen_of_leavesStore hE hkeyed, fun h ↦ leavesStore_of_unseen hE h.1 h.2⟩

/-- An audit event whose log cannot be opened. -/
theorem failedWrite_leavesStore_iff_audit :
    LeavesStore jsonCrates empty (failedWrite jsonCrates .auditLog
        ⟨['e'], none, [], [], [], [], 0⟩ .openLog empty).2 ↔
      InStep jsonCrates empty ∧
        Unseen jsonCrates empty .auditLog ⟨['e'], none, [], [], [], [], 0⟩ .openLog :=
  failedWrite_leavesStore_iff jsonCrates_lawful fun t ↦ keyed_empty t

/-- That event is found in memory, and not in the log. -/
theorem not_failedWrite_leavesStore :
    ¬ ∀ (s : FileStore) (t : Table) (r : t.Record) (fault : LineFault),
      InStep jsonCrates s → LeavesStore jsonCrates s (failedWrite jsonCrates t r fault s).2 := by
  intro h
  have hunseen := (unseen_of_leavesStore jsonCrates_lawful (fun t ↦ keyed_empty t)
    (h empty .auditLog ⟨['e'], none, [], [], [], [], 0⟩ .openLog fun l ↦ rfl)).2
  rcases hunseen .empty rfl rfl with hbundles | ⟨hput, -⟩
  · cases hbundles
  · exact absurd (congrArg (·.values.length) hput) (by decide)

end FileStore

end FrankenSnowflake.Cache
