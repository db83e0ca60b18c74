import FrankenSnowflake.Cache.JsonLines

/-!
# Appends behind a torn tail

A writer that dies while it appends leaves the beginning of a line.  The next
append goes right behind it, so its record is lost with the line, and a tail
that ends inside a character makes the whole log unreadable.  Compaction writes
the log anew from memory and so mends it.
-/

namespace FrankenSnowflake.Cache

open Foundation

variable {E : Crates}

/-! ## What lookups tell of a table -/

theorem eq_of_mem_values {t : Table} {m m' : SortedMap t.Key t.Record} (hm : Keyed t m)
    (hm' : Keyed t m') (h : ∀ r, r ∈ m.values ↔ r ∈ m'.values) : m = m' := by
  rw [← recordsOf_values hm, ← recordsOf_values hm']
  refine SortedMap.ext fun k ↦ Option.ext fun r ↦ ?_
  rw [get?_recordsOf_of_nodup hm.nodup, get?_recordsOf_of_nodup hm'.nodup, h]

theorem Answer.record_inj {t : Table} {r r' : Option t.Record}
    (h : Answer.record t r = .record t r') : r = r' := by
  cases h
  rfl

theorem Answer.records_inj {t : Table} {rs rs' : List t.Record}
    (h : Answer.records t rs = .records t rs') : rs = rs' := by
  cases h
  rfl

/-- Lookups tell tables apart, but for the replay bundles, which none reads. -/
theorem eq_of_answers {t : Table} (ht : t ≠ .replayBundles) {c c' : InMemoryCache}
    (hc : Keyed t (c t)) (hc' : Keyed t (c' t))
    (h : ∀ l : Lookup, l.table = t → l.answer c = l.answer c') : c t = c' t := by
  cases t with
  | profiles => exact SortedMap.ext fun k ↦ Answer.record_inj (h (.profile k) rfl)
  | catalogSnapshots => exact SortedMap.ext fun k ↦ Answer.record_inj (h (.catalogSnapshot k) rfl)
  | datasetManifests => exact SortedMap.ext fun k ↦ Answer.record_inj (h (.datasetManifest k) rfl)
  | queryPlans => exact SortedMap.ext fun k ↦ Answer.record_inj (h (.queryPlan k) rfl)
  | queryReceipts => exact SortedMap.ext fun k ↦ Answer.record_inj (h (.queryReceipt k) rfl)
  | exports => exact SortedMap.ext fun k ↦ Answer.record_inj (h (.export k) rfl)
  | partitionMetadata =>
      refine eq_of_mem_values hc hc' fun r ↦ ?_
      have heq := Answer.records_inj (h (.partitionsForReceipt r.receiptId) rfl)
      have hmem : r ∈ c.partitionsForReceipt r.receiptId ↔
          r ∈ c'.partitionsForReceipt r.receiptId := by rw [heq]
      simpa [InMemoryCache.partitionsForReceipt] using hmem
  | costHistory =>
      refine eq_of_mem_values hc hc' fun r ↦ ?_
      have heq := Answer.records_inj (h (.costHistoryForProfile r.profileId) rfl)
      have hmem : r ∈ c.costHistoryForProfile r.profileId ↔
          r ∈ c'.costHistoryForProfile r.profileId := by rw [heq]
      simpa [InMemoryCache.costHistoryForProfile, List.mem_mergeSort] using hmem
  | replayBundles => exact absurd rfl ht
  | auditLog =>
      refine eq_of_mem_values hc hc' fun r ↦ ?_
      have heq := Answer.records_inj (h .auditEvents rfl)
      have hmem : r ∈ c.auditEvents ↔ r ∈ c'.auditEvents := by rw [heq]
      simpa [InMemoryCache.auditEvents, List.mem_mergeSort] using hmem

/-! ## Logs with a torn tail -/

/-- A log of complete valid lines and the first `cut` bytes of one more line. -/
structure TornLog (E : Crates) (t : Table) where
  lines : List Text
  records : List t.Record
  valid : ValidLines E t lines records
  last : t.Record
  checks : t.check E last = .ok ()
  cut : Nat

namespace TornLog

variable {t : Table} (log : TornLog E t)

/-- The whole of the last line, with its newline. -/
def line : List UInt8 := Utf8.encode (lineText E t log.last)

/-- What the writer wrote of it. -/
def torn : List UInt8 := log.line.take log.cut

def content : List UInt8 := Utf8.encode (unlines log.lines) ++ log.torn

/-- The last line was written to its end. -/
def Complete : Prop := log.line.length ≤ log.cut

instance : Decidable log.Complete := inferInstanceAs (Decidable (_ ≤ _))

/-- The records of the complete lines. -/
def completeRecords : List t.Record :=
  if log.Complete then log.records ++ [log.last] else log.records

/-- The directory with the log in it. -/
def directory (d : Directory) : Directory := Function.update d t (some log.content)

/-- Whether the write of the last of `ws` compacts the table, if none before did. -/
def compactsAfter (ws : List t.Record) : Bool :=
  t.isUpsert &&
    compactsLazily (log.records.length + ws.length) (recordsOf t (log.records ++ ws)).values.length

/-- Whether one of the writes `ws` compacts the table, after the writes `done`. -/
def mends (done : List t.Record) : List t.Record → Bool
  | [] => false
  | r :: ws => log.compactsAfter (done ++ [r]) || mends (done ++ [r]) ws

end TornLog

/-- Records written one after the other, each with success. -/
def writeAll (E : Crates) (t : Table) : List t.Record → FileM Unit
  | [] => return ()
  | r :: rs => do
      write E t r
      writeAll E t rs

/-- A store with such a log opens with exactly the complete lines, and a store
that is opened after writes answers as the handle that wrote. -/
structure NeverLost {t : Table} (log : TornLog E t) (d : Directory) (ws : List t.Record) : Prop where
  loads : (ensureTableLoaded E t).run .open (log.directory d) =
    ((.ok (), FileCache.open.load t (recordsOf t log.completeRecords) log.completeRecords.length),
      log.directory d)
  answers : ∀ c d', (do ensureTableLoaded E t; writeAll E t ws : FileM Unit).run .open
    (log.directory d) = ((.ok (), c), d') →
      ∀ l, ((lookup E l).run .open d').1.1 = ((lookup E l).run c d').1.1

/-! ## The bytes of the tail -/

section Tail

variable {t : Table} (log : TornLog E t)

theorem line_eq : log.line = Utf8.encode (E.toString t ⟨lineVersion, log.last⟩) ++ [0x0a] := by
  rw [TornLog.line, lineText, Utf8.encode_append]
  rfl

theorem torn_of_complete (h : log.Complete) : log.torn = log.line := List.take_of_length_le h

/-- A tail that was cut off is a part of the line without its newline. -/
theorem exists_torn_append (h : ¬ log.Complete) :
    ∃ rest, Utf8.encode (E.toString t ⟨lineVersion, log.last⟩) = log.torn ++ rest := by
  refine ⟨(Utf8.encode (E.toString t ⟨lineVersion, log.last⟩)).drop log.cut, ?_⟩
  have hlt : log.cut < log.line.length := not_le.mp h
  rw [TornLog.torn, line_eq] at *
  rw [List.length_append, List.length_singleton] at hlt
  rw [List.take_append_of_le_length (Nat.lt_succ_iff.mp hlt), List.take_append_drop]

variable (hE : E.Lawful)
include hE

/-- The characters of a tail that is text are plain. -/
theorem plain_torn (h : ¬ log.Complete) {tail : Text} (htail : log.torn = Utf8.encode tail) :
    ∀ c ∈ tail, 0x20 ≤ c.toNat := by
  obtain ⟨rest, hrest⟩ := exists_torn_append log h
  rw [htail] at hrest
  have hdecode := Utf8.decode_append tail rest
  rw [← hrest, Utf8.decode_encode] at hdecode
  obtain ⟨y, -, hy⟩ := Option.map_eq_some_iff.mp hdecode.symm
  intro c hc
  exact hE.plain c (hy ▸ List.mem_append_left y hc)

theorem newline_not_mem_torn (h : ¬ log.Complete) {tail : Text}
    (htail : log.torn = Utf8.encode tail) : '\n' ∉ tail :=
  fun hmem ↦ absurd (plain_torn log hE h htail _ hmem) (by decide)

/-- A tail begins with the brace of its object. -/
theorem head_torn (h : ¬ log.Complete) (hcut : log.cut ≠ 0) {tail : Text}
    (htail : log.torn = Utf8.encode tail) : ∃ s, tail = '{' :: s := by
  obtain ⟨s, hs⟩ := hE.head (⟨lineVersion, log.last⟩ : Line t.Record)
  obtain ⟨rest, hrest⟩ := exists_torn_append log h
  rw [htail] at hrest
  have hdecode := Utf8.decode_append tail rest
  rw [← hrest, Utf8.decode_encode] at hdecode
  obtain ⟨y, -, hy⟩ := Option.map_eq_some_iff.mp hdecode.symm
  cases tail with
  | nil =>
      have hnil : log.torn = [] := htail
      rw [TornLog.torn, List.take_eq_nil_iff] at hnil
      rcases hnil with hzero | hline
      · exact absurd hzero hcut
      · exact absurd (line_eq log ▸ hline) (by simp)
  | cons c tail =>
      rw [hs] at hy
      exact ⟨tail, by rw [(List.cons.inj hy).1]⟩

/-- The line that the tail and an appended line make is not read. -/
theorem fromStr_glued (h : ¬ log.Complete) (hcut : log.cut ≠ 0) {tail : Text}
    (htail : log.torn = Utf8.encode tail) (l : Line t.Record) :
    E.fromStr t (tail ++ E.toString t l) = none := by
  obtain ⟨s, hs⟩ := head_torn log hE h hcut htail
  obtain ⟨rest, hrest⟩ := exists_torn_append log h
  obtain ⟨s', hs'⟩ := hE.head l
  have hbrace : String.utf8EncodeChar '{' = [0x7b] := by decide
  have hlast := hE.written (⟨lineVersion, log.last⟩ : Line t.Record)
  have hnext := hE.written l
  rw [hrest, htail, hs, Utf8.encode_cons, hbrace] at hlast
  rw [hs', Utf8.encode_cons, hbrace] at hnext
  cases hread : E.fromStr t (tail ++ E.toString t l) with
  | none => rfl
  | some l' =>
      obtain ⟨w, v, w', hw, hw', hv, heq⟩ := hE.read hread
      refine absurd heq ?_
      rw [hs, hs', Utf8.encode_append, Utf8.encode_cons, Utf8.encode_cons, hbrace]
      exact Json.not_derives_cut (by simpa using hlast) hnext hw hw' hv

end Tail

/-! ## States of the handle -/

/-- A handle that loaded one table. -/
structure OnlyLoaded (c : FileCache) (t : Table) : Prop where
  loaded : c.loadedTables t = true
  others : ∀ t' ≠ t, c.loadedTables t' = false ∧ c.inner t' = .empty

theorem OnlyLoaded.of_load (t : Table) (m : SortedMap t.Key t.Record) (count : Nat) :
    OnlyLoaded (FileCache.open.load t m count) t where
  loaded := Function.update_self _ _ _
  others _ ht' := ⟨Function.update_of_ne ht' _ _, Function.update_of_ne ht' _ _⟩

theorem OnlyLoaded.written {c : FileCache} {t : Table} (h : OnlyLoaded c t) (r : t.Record) :
    OnlyLoaded (c.written t r) t where
  loaded := h.loaded
  others t' ht' := ⟨(h.others t' ht').1, (Function.update_of_ne ht' _ _).trans (h.others t' ht').2⟩

/-- The log holds the table that the handle has. -/
structure Clean (E : Crates) (t : Table) (c : FileCache) (d : Directory) : Prop where
  only : OnlyLoaded c t
  onDisk : ∃ ls rs, ValidLines E t ls rs ∧ d t = some (Utf8.encode (unlines ls)) ∧
    c.inner t = recordsOf t rs

/-- The log has the torn tail, and the lines of `ws` behind it. -/
structure Torn {t : Table} (log : TornLog E t) (ws : List t.Record) (c : FileCache) (d : Directory) :
    Prop where
  only : OnlyLoaded c t
  onDisk : d t = some (log.content ++ Utf8.encode (ws.flatMap (lineText E t)))
  inner : c.inner t = recordsOf t (log.records ++ ws)
  count : c.tableLineCounts t = log.records.length + ws.length

/-- A table that was just compacted. -/
theorem Clean.compacted (hE : E.Lawful) {t : Table} {c : FileCache} (hc : OnlyLoaded c t)
    {rs : List t.Record} (hrs : ∀ r ∈ rs, t.check E r = .ok ()) (hinner : c.inner t = recordsOf t rs)
    (d : Directory) (count : Nat) :
    Clean E t { c with tableLineCounts := Function.update c.tableLineCounts t count }
      (Function.update d t (some (canonicalBytes E t (c.inner t)))) where
  only := ⟨hc.loaded, hc.others⟩
  onDisk := by
    refine ⟨_, (c.inner t).values, validLines_toString hE ?_, ?_, ?_⟩
    · exact hinner ▸ checked_recordsOf hrs
    · rw [Function.update_self, canonicalBytes, flatMap_lineText]
    · exact (recordsOf_values (hinner ▸ keyed_recordsOf t rs)).symm

theorem Clean.write (hE : E.Lawful) {t : Table} {c : FileCache} {d : Directory}
    (h : Clean E t c d) {r : t.Record} (hr : t.check E r = .ok ()) :
    ∃ c' d', (write E t r).run c d = ((.ok (), c'), d') ∧ Clean E t c' d' := by
  obtain ⟨ls, rs, hlines, hlog, hinner⟩ := h.onDisk
  have hwritten : (c.written t r).inner t = recordsOf t (rs ++ [r]) := by
    rw [FileCache.written_inner, hinner, recordsOf_append]
    rfl
  have hchecks : ∀ r' ∈ rs ++ [r], t.check E r' = .ok () := by
    intro r' hr'
    rcases List.mem_append.mp hr' with hmem | hmem
    · exact hlines.checks r' hmem
    · exact List.mem_singleton.mp hmem ▸ hr
  rw [run_write_loaded h.only.loaded hr]
  split_ifs
  · exact ⟨_, _, rfl, Clean.compacted hE (h.only.written r) hchecks hwritten _ _⟩
  · refine ⟨_, _, rfl, h.only.written r, ls ++ [E.toString t ⟨lineVersion, r⟩], rs ++ [r], ?_, ?_,
      hwritten⟩
    · exact List.rel_append hlines (.cons (validLine_toString hE hr) .nil)
    · rw [Directory.appended_self, hlog, Option.getD_some, ← Utf8.encode_append, unlines_append,
        lineText, unlines_cons, unlines_nil]

theorem Clean.writeAll (hE : E.Lawful) {t : Table} {c : FileCache} {d : Directory}
    (h : Clean E t c d) {ws : List t.Record} (hws : ∀ r ∈ ws, t.check E r = .ok ()) :
    ∃ c' d', (writeAll E t ws).run c d = ((.ok (), c'), d') ∧ Clean E t c' d' := by
  induction ws generalizing c d with
  | nil => exact ⟨c, d, rfl, h⟩
  | cons r ws ih =>
      obtain ⟨hr, hws⟩ := List.forall_mem_cons.mp hws
      obtain ⟨c', d', hrun, hclean⟩ := h.write hE hr
      obtain ⟨c'', d'', hruns, hclean'⟩ := ih hclean hws
      exact ⟨c'', d'', (FileM.run_bind_ok hrun).trans hruns, hclean'⟩

section TornWrites

variable (hE : E.Lawful) {t : Table} {log : TornLog E t}
include hE

/-- A write behind the tail appends its line, or compacts the table. -/
theorem Torn.write {done : List t.Record} {c : FileCache} {d : Directory} (h : Torn log done c d)
    (hdone : ∀ r ∈ done, t.check E r = .ok ()) {r : t.Record} (hr : t.check E r = .ok ()) :
    ∃ c' d', (Cache.write E t r).run c d = ((.ok (), c'), d') ∧
      (log.compactsAfter (done ++ [r]) = true → Clean E t c' d') ∧
      (log.compactsAfter (done ++ [r]) = false → Torn log (done ++ [r]) c' d') := by
  have hwritten : (c.written t r).inner t = recordsOf t (log.records ++ (done ++ [r])) := by
    rw [FileCache.written_inner, h.inner, ← List.append_assoc,
      recordsOf_append t (log.records ++ done)]
    rfl
  have hcount : (c.written t r).tableLineCounts t = log.records.length + (done ++ [r]).length := by
    rw [FileCache.written_tableLineCounts, h.count, List.length_append]
    rfl
  have hchecks : ∀ r' ∈ log.records ++ (done ++ [r]), t.check E r' = .ok () := by
    intro r' hr'
    simp only [List.mem_append, List.mem_singleton] at hr'
    rcases hr' with hmem | hmem | rfl
    · exact log.valid.checks r' hmem
    · exact hdone r' hmem
    · exact hr
  have hcompacts : (c.written t r).compacts t = log.compactsAfter (done ++ [r]) := by
    rw [FileCache.compacts, TornLog.compactsAfter, hcount, hwritten]
  rw [run_write_loaded h.only.loaded hr, hcompacts]
  cases hcase : log.compactsAfter (done ++ [r]) with
  | true =>
      exact ⟨_, _, rfl, fun _ ↦ Clean.compacted hE (h.only.written r) hchecks hwritten _ _,
        fun h ↦ absurd h.symm Bool.false_ne_true⟩
  | false =>
      refine ⟨_, _, rfl, fun h ↦ absurd h Bool.false_ne_true,
        fun _ ↦ ⟨h.only.written r, ?_, hwritten, hcount⟩⟩
      rw [Directory.appended_self, h.onDisk, Option.getD_some, List.append_assoc,
        ← Utf8.encode_append, List.flatMap_append, List.flatMap_singleton]

/-- After writes behind the tail the log is mended, or it has all their lines. -/
theorem Torn.writeAll {done ws : List t.Record} {c : FileCache} {d : Directory}
    (h : Torn log done c d) (hdone : ∀ r ∈ done, t.check E r = .ok ())
    (hws : ∀ r ∈ ws, t.check E r = .ok ()) :
    ∃ c' d', (Cache.writeAll E t ws).run c d = ((.ok (), c'), d') ∧
      (log.mends done ws = true → Clean E t c' d') ∧
      (log.mends done ws = false → Torn log (done ++ ws) c' d') := by
  induction ws generalizing done c d with
  | nil => exact ⟨c, d, rfl, nofun, fun _ ↦ by rwa [List.append_nil]⟩
  | cons r ws ih =>
      obtain ⟨hr, hws⟩ := List.forall_mem_cons.mp hws
      obtain ⟨c', d', hrun, hclean, htorn⟩ := h.write hE hdone hr
      rw [TornLog.mends]
      cases hcase : log.compactsAfter (done ++ [r]) with
      | true =>
          obtain ⟨c'', d'', hruns, hclean'⟩ := (hclean hcase).writeAll hE hws
          exact ⟨c'', d'', (FileM.run_bind_ok hrun).trans hruns, fun _ ↦ hclean', nofun⟩
      | false =>
          have hdone' : ∀ r' ∈ done ++ [r], t.check E r' = .ok () := by
            intro r' hr'
            rcases List.mem_append.mp hr' with hmem | hmem
            · exact hdone r' hmem
            · exact List.mem_singleton.mp hmem ▸ hr
          obtain ⟨c'', d'', hruns, hmended, hstill⟩ := ih (htorn hcase) hdone' hws
          have happend : done ++ r :: ws = done ++ [r] ++ ws := List.append_cons done r ws
          rw [Bool.false_or, happend]
          exact ⟨c'', d'', (FileM.run_bind_ok hrun).trans hruns, hmended, hstill⟩

end TornWrites

/-! ## Two handles on one directory -/

/-- A load changes its own table, by what the table had. -/
theorem loadLines_table (t : Table) (m : SortedMap t.Key t.Record) (content : Text) :
    ∃ m' skipped valid, ∀ s : Loading InMemoryCache, s.target t = m →
      loadLines E (memoryTarget E) t s content =
        ⟨Function.update s.target t m', s.skipped + skipped, s.valid + valid⟩ := by
  unfold loadLines
  induction lines (Foundation.completeLines content) generalizing m with
  | nil => exact ⟨m, 0, 0, fun s hs ↦ by rw [← hs, Function.update_eq_self]; rfl⟩
  | cons line ls ih =>
      have hline : ∃ m' skipped valid, ∀ s : Loading InMemoryCache, s.target t = m →
          loadLine E (memoryTarget E) t s line =
            ⟨Function.update s.target t m', s.skipped + skipped, s.valid + valid⟩ := by
        have hsame : ∀ s : Loading InMemoryCache, s.target t = m →
            Function.update s.target t m = s.target := fun s hs ↦ hs ▸ Function.update_eq_self t _
        unfold loadLine
        split_ifs
        · exact ⟨m, 0, 0, fun s hs ↦ by rw [hsame s hs]; rfl⟩
        · split
          next v r _ =>
            split_ifs
            · cases hcheck : t.check E r with
              | ok =>
                  refine ⟨t.put m r, 0, 1, fun s hs ↦ ?_⟩
                  simp only [memoryTarget, InMemoryCache.write, hcheck, ← hs]
                  rfl
              | error e =>
                  refine ⟨m, 1, 0, fun s hs ↦ ?_⟩
                  simp only [memoryTarget, InMemoryCache.write, hcheck, hsame s hs]
                  rfl
            · exact ⟨m, 1, 0, fun s hs ↦ by rw [hsame s hs]; rfl⟩
          next => exact ⟨m, 1, 0, fun s hs ↦ by rw [hsame s hs]; rfl⟩
      obtain ⟨m₁, skipped₁, valid₁, hline⟩ := hline
      obtain ⟨m₂, skipped₂, valid₂, hls⟩ := ih m₁
      refine ⟨m₂, skipped₁ + skipped₂, valid₁ + valid₂, fun s hs ↦ ?_⟩
      rw [List.foldl_cons, hline s hs, hls _ (Function.update_self _ _ _)]
      simp only [Function.update_idem, Nat.add_assoc]

/-- Handles that have not loaded a table answer alike about it. -/
theorem lookup_congr {l : Lookup} {c c' : FileCache} (hc : c.loadedTables l.table = false)
    (hc' : c'.loadedTables l.table = false) (hinner : c.inner l.table = c'.inner l.table)
    (d : Directory) : ((lookup E l).run c d).1.1 = ((lookup E l).run c' d).1.1 := by
  cases hlog : d l.table with
  | none =>
      rw [run_lookup (run_ensureTableLoaded_absent hc hlog),
        run_lookup (run_ensureTableLoaded_absent hc' hlog)]
      refine congrArg Except.ok (l.answer_congr ?_)
      simp only [FileCache.load, Function.update_self, hinner]
  | some bytes =>
      cases hdecode : Utf8.decode bytes with
      | none =>
          rw [run_lookup_error (run_ensureTableLoaded_garbled hc hlog hdecode),
            run_lookup_error (run_ensureTableLoaded_garbled hc' hlog hdecode)]
      | some content =>
          obtain ⟨m, skipped, valid, hload⟩ := loadLines_table (E := E) l.table (c.inner l.table) content
          rw [run_lookup (run_ensureTableLoaded_text hc hlog hdecode (hload _ rfl)),
            run_lookup (run_ensureTableLoaded_text hc' hlog hdecode (hload _ hinner.symm))]
          refine congrArg Except.ok (l.answer_congr ?_)
          simp only [FileCache.load, Function.update_self]

/-- A handle with one loaded table and a new handle agree, if they agree about
that table. -/
theorem answers_iff {t : Table} {c : FileCache} (hc : OnlyLoaded c t) {d : Directory}
    {fresh : FileCache} (hfresh : (ensureTableLoaded E t).run .open d = ((.ok (), fresh), d)) :
    (∀ l, ((lookup E l).run .open d).1.1 = ((lookup E l).run c d).1.1) ↔
      ∀ l : Lookup, l.table = t → l.answer fresh.inner = l.answer c.inner := by
  constructor
  · rintro h l rfl
    have hl := h l
    rw [run_lookup hfresh, run_lookup (run_ensureTableLoaded_loaded hc.loaded d)] at hl
    exact Except.ok.inj hl
  · intro h l
    by_cases hl : l.table = t
    · subst hl
      rw [run_lookup hfresh, run_lookup (run_ensureTableLoaded_loaded hc.loaded d), h l rfl]
    · obtain ⟨hloaded, hinner⟩ := hc.others _ hl
      exact lookup_congr rfl hloaded hinner.symm d

/-- A new handle agrees with the handle of a log without a tail. -/
theorem Clean.answers {t : Table} {c : FileCache} {d : Directory} (h : Clean E t c d) (l : Lookup) :
    ((lookup E l).run .open d).1.1 = ((lookup E l).run c d).1.1 := by
  obtain ⟨ls, rs, hlines, hlog, hinner⟩ := h.onDisk
  rw [← List.append_nil (unlines ls)] at hlog
  have hfresh := run_ensureTableLoaded_valid (c := .open) rfl rfl hlines List.not_mem_nil hlog
  refine (answers_iff h.only hfresh).mpr (fun l hl ↦ l.answer_congr ?_) l
  subst hl
  simp only [FileCache.load, Function.update_self, hinner]

/-! ## Opening a store -/

section Open

variable (hE : E.Lawful) {t : Table} (log : TornLog E t)

theorem directory_self (d : Directory) : log.directory d t = some log.content :=
  Function.update_self _ _ _

/-- A tail that is no text makes the log unreadable. -/
theorem run_open_garbled (h : Utf8.decode log.torn = none) (d : Directory) :
    (ensureTableLoaded E t).run .open (log.directory d) =
      ((.error (.io "read table log" t.fileName), .open), log.directory d) := by
  refine run_ensureTableLoaded_garbled rfl (directory_self log d) ?_
  rw [TornLog.content, Utf8.decode_append, h]
  rfl

include hE

/-- A last line that was written to its end is as valid as the others. -/
theorem run_open_complete (h : log.Complete) (d : Directory) :
    (ensureTableLoaded E t).run .open (log.directory d) =
        ((.ok (), FileCache.open.load t (recordsOf t log.completeRecords)
          log.completeRecords.length), log.directory d) ∧
      Clean E t (FileCache.open.load t (recordsOf t log.completeRecords)
        log.completeRecords.length) (log.directory d) := by
  have hlines : ValidLines E t (log.lines ++ [E.toString t ⟨lineVersion, log.last⟩])
      (log.records ++ [log.last]) :=
    List.rel_append log.valid (.cons (validLine_toString hE log.checks) .nil)
  have hlog : log.directory d t =
      some (Utf8.encode (unlines (log.lines ++ [E.toString t ⟨lineVersion, log.last⟩]))) := by
    rw [directory_self, TornLog.content, torn_of_complete log h, TornLog.line, unlines_append,
      Utf8.encode_append, lineText, unlines_cons, unlines_nil]
  have hrecords : log.completeRecords = log.records ++ [log.last] := if_pos h
  rw [hrecords]
  refine ⟨?_, .of_load t _ _, _, _, hlines, hlog, Function.update_self _ _ _⟩
  rw [← List.append_nil (unlines _)] at hlog
  exact run_ensureTableLoaded_valid rfl rfl hlines List.not_mem_nil hlog

/-- A tail that is text is passed over. -/
theorem run_open_torn (h : ¬ log.Complete) {tail : Text} (htail : log.torn = Utf8.encode tail)
    (d : Directory) :
    (ensureTableLoaded E t).run .open (log.directory d) =
        ((.ok (), FileCache.open.load t (recordsOf t log.completeRecords)
          log.completeRecords.length), log.directory d) ∧
      Torn log [] (FileCache.open.load t (recordsOf t log.completeRecords)
        log.completeRecords.length) (log.directory d) := by
  have hrecords : log.completeRecords = log.records := if_neg h
  rw [hrecords]
  constructor
  · refine run_ensureTableLoaded_valid rfl rfl log.valid (newline_not_mem_torn log hE h htail) ?_
    rw [directory_self, TornLog.content, htail, Utf8.encode_append]
  · refine ⟨.of_load t _ _, ?_, ?_, Function.update_self _ _ _⟩
    · rw [directory_self, List.flatMap_nil, Utf8.encode_nil, List.append_nil]
    · rw [List.append_nil]
      exact Function.update_self _ _ _

/-- Behind a tail, a new handle finds every record but the first one. -/
theorem Torn.run_open {log : TornLog E t} (h : ¬ log.Complete) (hcut : log.cut ≠ 0) {tail : Text}
    (htail : log.torn = Utf8.encode tail) {r : t.Record} {ws : List t.Record} {c : FileCache}
    {d : Directory} (hws : ∀ r' ∈ ws, t.check E r' = .ok ()) (hd : Torn log (r :: ws) c d) :
    ∃ fresh, (ensureTableLoaded E t).run .open d = ((.ok (), fresh), d) ∧
      fresh.inner = Function.update FileCache.open.inner t (recordsOf t (log.records ++ ws)) := by
  have hplain : ∀ c ∈ tail ++ E.toString t ⟨lineVersion, r⟩, 0x20 ≤ c.toNat := by
    intro c hc
    rcases List.mem_append.mp hc with hc | hc
    · exact plain_torn log hE h htail c hc
    · exact hE.plain c hc
  have hnewline : '\n' ∉ tail ++ E.toString t ⟨lineVersion, r⟩ :=
    fun hmem ↦ absurd (hplain _ hmem) (by decide)
  have hvalid := validLines_toString hE hws
  have hcontent : d t = some (Utf8.encode (unlines (log.lines ++
      (tail ++ E.toString t ⟨lineVersion, r⟩) ::
        ws.map fun r ↦ E.toString t ⟨lineVersion, r⟩))) := by
    rw [hd.onDisk, TornLog.content, htail, flatMap_lineText, List.map_cons, unlines_append,
      unlines_cons, unlines_cons]
    simp only [Utf8.encode_append, List.append_assoc]
  have hskip : ∀ s : Loading InMemoryCache, loadLine E (memoryTarget E) t s
      (chomp (tail ++ E.toString t ⟨lineVersion, r⟩)) = { s with skipped := s.skipped + 1 } := by
    intro s
    obtain ⟨s', hs'⟩ := head_torn log hE h hcut htail
    have hblank : (Unicode.trim (tail ++ E.toString t ⟨lineVersion, r⟩)).isEmpty = false := by
      rw [hs']
      exact isEmpty_trim_brace _
    rw [chomp_of_plain hplain, loadLine, hblank, fromStr_glued log hE h hcut htail]
    rfl
  have hload : loadLines E (memoryTarget E) t ⟨FileCache.open.inner, 0, 0⟩ (unlines (log.lines ++
      (tail ++ E.toString t ⟨lineVersion, r⟩) ::
        ws.map fun r ↦ E.toString t ⟨lineVersion, r⟩)) =
      ⟨Function.update FileCache.open.inner t (recordsOf t (log.records ++ ws)), 1,
        log.records.length + ws.length⟩ := by
    have hlines : ∀ l ∈ log.lines ++ (tail ++ E.toString t ⟨lineVersion, r⟩) ::
        ws.map (fun r ↦ E.toString t ⟨lineVersion, r⟩), '\n' ∉ l := by
      intro l hl
      rcases List.mem_append.mp hl with hl | hl
      · exact log.valid.newline l hl
      · rcases List.mem_cons.mp hl with rfl | hl
        · exact hnewline
        · exact hvalid.newline l hl
    have hcut' := completeLines_unlines (log.lines ++
      (tail ++ E.toString t ⟨lineVersion, r⟩) :: ws.map fun r ↦ E.toString t ⟨lineVersion, r⟩)
    rw [loadLines, hcut', lines_unlines hlines, List.map_append, List.foldl_append, List.map_cons,
      List.foldl_cons, foldl_loadLine _ log.valid, foldl_takeRecord_memory log.valid.checks, hskip,
      foldl_loadLine _ hvalid, foldl_takeRecord_memory hws]
    simp only [Function.update_self, Function.update_idem, recordsOf_append, Nat.zero_add]
    rfl
  exact ⟨_, run_ensureTableLoaded_text rfl hcontent (Utf8.decode_encode _) hload, rfl⟩

end Open

/-! ## When no append is lost -/

section Lost

variable (hE : E.Lawful) {t : Table} {log : TornLog E t} {d : Directory} {ws : List t.Record}

theorem torn_of_cut_zero (h : log.cut = 0) : log.torn = [] := by
  rw [TornLog.torn, h, List.take_zero]

/-- A run of the writes from the state of an opened store. -/
theorem neverLost_iff_answers {c c' : FileCache} {d' : Directory}
    (hopen : (ensureTableLoaded E t).run .open (log.directory d) =
      ((.ok (), c), log.directory d))
    (hc : c = FileCache.open.load t (recordsOf t log.completeRecords) log.completeRecords.length)
    (hrun : (writeAll E t ws).run c (log.directory d) = ((.ok (), c'), d')) :
    NeverLost log d ws ↔ ∀ l, ((lookup E l).run .open d').1.1 = ((lookup E l).run c' d').1.1 := by
  constructor
  · intro h
    exact h.answers c' d' ((FileM.run_bind_ok hopen).trans hrun)
  · intro h
    refine ⟨hc ▸ hopen, fun c₁ d₁ hrun₁ ↦ ?_⟩
    rw [FileM.run_bind_ok hopen, hrun] at hrun₁
    cases hrun₁
    exact h

include hE

/-- Behind complete lines no append is lost. -/
theorem neverLost_of_clean {c : FileCache}
    (hopen : (ensureTableLoaded E t).run .open (log.directory d) =
      ((.ok (), c), log.directory d))
    (hc : c = FileCache.open.load t (recordsOf t log.completeRecords) log.completeRecords.length)
    (hclean : Clean E t c (log.directory d)) (hws : ∀ r ∈ ws, t.check E r = .ok ()) :
    NeverLost log d ws := by
  obtain ⟨c', d', hrun, hclean'⟩ := hclean.writeAll hE hws
  exact (neverLost_iff_answers hopen hc hrun).mpr hclean'.answers

/-- Behind a tail, the first record written is lost, unless compaction mends the log. -/
theorem neverLost_iff_of_torn (hcomplete : ¬ log.Complete) (hcut : log.cut ≠ 0) {tail : Text}
    (htail : log.torn = Utf8.encode tail) (hws : ∀ r ∈ ws, t.check E r = .ok ()) :
    NeverLost log d ws ↔
      recordsOf t (log.records ++ ws) = recordsOf t (log.records ++ ws.tail) ∨
        log.mends [] ws = true ∨ t = .replayBundles := by
  obtain ⟨hopen, htorn⟩ := run_open_torn hE log hcomplete htail d
  obtain ⟨c', d', hrun, hmended, hstill⟩ := htorn.writeAll hE (by simp) hws
  rw [neverLost_iff_answers hopen rfl hrun]
  cases hmends : log.mends [] ws with
  | true =>
      refine iff_of_true (hmended hmends).answers (Or.inr (Or.inl rfl))
  | false =>
      have hd' : Torn log ws c' d' := hstill hmends
      have hkeyed : Keyed t (c'.inner t) := hd'.inner ▸ keyed_recordsOf t _
      cases ws with
      | nil =>
          cases hrun
          refine iff_of_true ?_ (Or.inl rfl)
          exact (answers_iff hd'.only hopen).mpr fun l _ ↦ rfl
      | cons r ws =>
          obtain ⟨fresh, hfresh, hinner⟩ := Torn.run_open hE hcomplete hcut htail
            (List.forall_mem_cons.mp hws).2 hd'
          have htable : fresh.inner t = recordsOf t (log.records ++ ws) := by
            rw [hinner, Function.update_self]
          rw [answers_iff hd'.only hfresh]
          constructor
          · intro h
            by_cases hbundles : t = .replayBundles
            · exact Or.inr (Or.inr hbundles)
            · refine Or.inl ?_
              have heq := eq_of_answers hbundles (htable ▸ keyed_recordsOf t _) hkeyed h
              rw [List.tail_cons, ← htable, heq, hd'.inner]
          · rintro (heq | hfalse | hbundles) l hl
            · refine l.answer_congr ?_
              rw [hl, htable, hd'.inner, heq, List.tail_cons]
            · cases hfalse
            · subst hbundles
              cases l <;> cases hl

end Lost

/-- An audit log that holds the first byte of a line. -/
noncomputable def tornAuditLog : TornLog jsonCrates .auditLog where
  lines := []
  records := []
  valid := .nil
  last := ⟨['e', '0'], none, [], [], [], [], 0⟩
  checks := rfl
  cut := 1

theorem line_tornAuditLog : ∃ s, tornAuditLog.line = 0x7b :: (s ++ [0x0a]) := by
  obtain ⟨s, hs⟩ := jsonCrates_lawful.head (⟨lineVersion, tornAuditLog.last⟩ : Line Table.auditLog.Record)
  refine ⟨Utf8.encode s, ?_⟩
  rw [line_eq, hs, Utf8.encode_cons]
  rfl

end FrankenSnowflake.Cache
