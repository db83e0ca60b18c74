import FrankenSnowflake.Cache.SqliteRows

/-!
# Lookups in SQLite

The SQLite backend holds the rows of the records of the in-memory backend.  It
accepts and refuses the same records, and its queries answer as the tables in
memory: what their orders leave open is settled by the primary key.
-/

namespace FrankenSnowflake.Cache

open Foundation Foundation.Sql

variable {E : Crates}

theorem Checked.put {t : Table} {m : SortedMap t.Key t.Record} (h : Checked E t m) {r : t.Record}
    (hr : t.check E r = .ok ()) : Checked E t (t.put m r) := by
  intro r' hr'
  obtain ⟨k, hk⟩ := SortedMap.mem_values.mp hr'
  rw [get?_put] at hk
  split_ifs at hk with hkey hlast
  · rwa [← Option.some.inj hk]
  · rcases Option.or_eq_some_iff.mp hk with hget | ⟨-, heq⟩
    · exact h r' (SortedMap.mem_values.mpr ⟨k, hget⟩)
    · rwa [← Option.some.inj heq]
  · exact h r' (SortedMap.mem_values.mpr ⟨k, hk⟩)

section Keys

variable {t : Table} {m : SortedMap t.Key t.Record} (hm : Keyed t m)
include hm

theorem Keyed.eq_of_key {r r' : t.Record} (hr : r ∈ m.values) (hr' : r' ∈ m.values)
    (h : t.key r = t.key r') : r = r' := by
  rw [hm.mem_values] at hr hr'
  rw [h, hr'] at hr
  exact (Option.some.inj hr).symm

/-- The records under a key. -/
theorem Keyed.filter_key (k : t.Key) :
    (m.values.filter fun r ↦ decide (t.key r = k)) = (m.get? k).toList := by
  have hmem : ∀ r, r ∈ m.values.filter (fun r ↦ decide (t.key r = k)) ↔ m.get? k = some r := by
    intro r
    rw [List.mem_filter, decide_eq_true_eq, hm.mem_values]
    constructor
    · rintro ⟨hr, rfl⟩
      exact hr
    · intro hr
      rw [hm k r hr]
      exact ⟨hr, rfl⟩
  cases hget : m.get? k with
  | none =>
      refine List.eq_nil_iff_forall_not_mem.mpr fun r hr ↦ ?_
      rw [hmem, hget] at hr
      cases hr
  | some r =>
      have hnodup : m.values.Nodup := List.Nodup.of_map _ hm.nodup
      have hperm : (m.values.filter fun r ↦ decide (t.key r = k)).Perm [r] := by
        refine (List.perm_ext_iff_of_nodup (hnodup.filter _) (List.nodup_singleton r)).mpr fun r' ↦ ?_
        rw [hmem, hget, List.mem_singleton, Option.some.injEq, eq_comm]
      exact List.perm_singleton.mp hperm

/-- Records are in the order of their keys. -/
theorem Keyed.pairwise : m.values.Pairwise fun r r' ↦ t.key r < t.key r' := by
  have hkeys := m.sorted_keys
  rwa [← hm.map_key, List.pairwise_map] at hkeys

end Keys

namespace FrankenSqliteCache

/-- The rows are those of the records in memory. -/
structure Simulates (E : Crates) (c : InMemoryCache) (db : FrankenSqliteCache) : Prop where
  rows : ∀ t, Represents (rowOf t) (c t) (db t)
  keyed : ∀ t, Keyed t (c t)
  checked : ∀ t, Checked E t (c t)

theorem simulates_new : Simulates E .new .new where
  rows _ := represents_empty
  keyed t := keyed_empty t
  checked _ _ hr := absurd hr List.not_mem_nil

/-! ## Writes -/

/-- An insertion puts a record in its place. -/
theorem write_eq {db : FrankenSqliteCache} {t : Table} {r : t.Record}
    (hb : Bounded t r) : write E t db r = do
      t.check E r
      return Function.update db t
        (if t.lastWriteWins then insertOrReplace (primaryKeyColumns t) (rowOf t r) (db t)
        else insertOrIgnore (primaryKeyColumns t) (rowOf t r) (db t)) := by
  cases t <;> simp only [write, upsertProfile, insertCatalogSnapshot, upsertDatasetManifest,
    upsertQueryPlan, appendQueryReceipt, appendPartitionMetadata, appendExport, appendCostHistory,
    appendReplayBundle, appendAuditEvent, insert, params_eq hb] <;> rfl

/-- The rows after an insertion. -/
theorem Represents.put {t : Table} {m : SortedMap t.Key t.Record} {rows : List Row}
    (h : Represents (rowOf t) m rows) (hm : Keyed t m) (r : t.Record) :
    Represents (rowOf t) (t.put m r)
      (if t.lastWriteWins then insertOrReplace (primaryKeyColumns t) (rowOf t r) rows
        else insertOrIgnore (primaryKeyColumns t) (rowOf t r) rows) := by
  unfold Table.put
  cases t.lastWriteWins with
  | true => exact h.insertOrReplace (fun r r' ↦ primaryKey_rowOf) hm r
  | false => exact h.insertOrIgnore (fun r r' ↦ primaryKey_rowOf) hm r

theorem Simulates.write {c : InMemoryCache} {db : FrankenSqliteCache} (h : Simulates E c db)
    {t : Table} {r : t.Record} (hb : Bounded t r) :
    (∃ e, c.write E t r = .error e ∧ write E t db r = .error e) ∨
      ∃ c' db', c.write E t r = .ok c' ∧ write E t db r = .ok db' ∧ Simulates E c' db' := by
  rw [write_eq hb, InMemoryCache.write]
  cases hcheck : t.check E r with
  | error e => exact Or.inl ⟨e, rfl, rfl⟩
  | ok a =>
      refine Or.inr ⟨_, _, rfl, rfl, fun t' ↦ ?_, fun t' ↦ ?_, fun t' ↦ ?_⟩
      all_goals
        by_cases ht : t' = t
        · subst ht
          simp only [Function.update_self]
          first
          | exact Represents.put (h.rows t') (h.keyed t') r
          | exact (h.keyed t').put r
          | exact (h.checked t').put hcheck
        · simp only [Function.update_of_ne ht]
          first
          | exact h.rows t'
          | exact h.keyed t'
          | exact h.checked t'

/-! ## Queries -/

theorem Simulates.select {c : InMemoryCache} {db : FrankenSqliteCache} (h : Simulates E c db)
    {t : Table} {p : Row → Bool} {order : List Term}
    (horder : ∀ r r', p (rowOf t r) = true → p (rowOf t r') = true →
      (∀ term ∈ order, (rowOf t r).col term.column = (rowOf t r').col term.column) →
        t.key r = t.key r') :
    Sql.select p order (db t) = (((c t).values.filter fun r ↦ p (rowOf t r)).mergeSort
      fun r r' ↦ le order (rowOf t r) (rowOf t r')).map (rowOf t) :=
  select_of_perm (h.rows t) fun r hr r' hr' hp hp' hcols ↦
    (h.keyed t).eq_of_key hr hr' (horder r r' hp hp' hcols)

/-- A query for the record of a key. -/
theorem Simulates.first_key {c : InMemoryCache} {db : FrankenSqliteCache} (h : Simulates E c db)
    {t : Table} {decode : Row → CacheResult t.Record} {k : t.Key} {p : Row → Bool}
    (hdecode : ∀ r, t.check E r = .ok () → decode (rowOf t r) = .ok r)
    (hp : ∀ r, p (rowOf t r) = true ↔ t.key r = k) :
    first decode (Sql.select p [] (db t)) = .ok ((c t).get? k) := by
  have hp' : ∀ r, p (rowOf t r) = decide (t.key r = k) := by
    intro r
    rw [Bool.eq_iff_iff, decide_eq_true_eq, hp]
  rw [h.select fun r r' hr hr' _ ↦ ((hp r).mp hr).trans ((hp r').mp hr').symm]
  simp only [hp', (h.keyed t).filter_key]
  cases hget : (c t).get? k with
  | none => simp [first]
  | some r =>
      have hcheck := h.checked t r (SortedMap.mem_values.mpr ⟨k, hget⟩)
      simp [first, hdecode r hcheck, Except.map]

theorem mapM_map_ok {α ρ : Type} {row : α → Row} {decode : Row → CacheResult ρ} {v : α → ρ}
    {l : List α} (h : ∀ a ∈ l, decode (row a) = .ok (v a)) :
    (l.map row).mapM decode = .ok (l.map v) := by
  induction l with
  | nil => rfl
  | cons a l ih =>
      obtain ⟨ha, hl⟩ := List.forall_mem_cons.mp h
      rw [List.map_cons, List.mapM_cons, ha, ih hl]
      rfl

theorem first_map_eq {ρ : Type} {row : ρ → Row} {decode : Row → CacheResult ρ} {rs : List ρ}
    (h : ∀ r ∈ rs, decode (row r) = .ok r) :
    first decode ((rs.map row).take 1) = .ok rs.head? := by
  cases rs with
  | nil => rfl
  | cons r rs => simp [first, h r List.mem_cons_self, Except.map]

section Ordered

variable {c : InMemoryCache} {db : FrankenSqliteCache} (h : Simulates E c db) {t : Table}
  {decode : Row → CacheResult t.Record} {p : Row → Bool} {order : List Term}
  (hdecode : ∀ r, t.check E r = .ok () → decode (rowOf t r) = .ok r)
  (horder : ∀ r r', p (rowOf t r) = true → p (rowOf t r') = true →
    (∀ term ∈ order, (rowOf t r).col term.column = (rowOf t r').col term.column) →
      t.key r = t.key r')
include h hdecode horder

omit horder in
theorem decode_select {r : t.Record} (hr : r ∈ ((c t).values.filter fun r ↦ p (rowOf t r)).mergeSort
    fun r r' ↦ le order (rowOf t r) (rowOf t r')) : decode (rowOf t r) = .ok r :=
  hdecode r (h.checked t r (List.mem_of_mem_filter (List.mem_mergeSort.mp hr)))

/-- A query for records in order. -/
theorem Simulates.mapM_select :
    (Sql.select p order (db t)).mapM decode =
      .ok (((c t).values.filter fun r ↦ p (rowOf t r)).mergeSort
        fun r r' ↦ le order (rowOf t r) (rowOf t r')) := by
  rw [h.select horder, mapM_map_ok fun r hr ↦ decode_select h hdecode hr, List.map_id']

/-- A query for the first record in order. -/
theorem Simulates.first_select :
    first decode ((Sql.select p order (db t)).take 1) =
      .ok (((c t).values.filter fun r ↦ p (rowOf t r)).mergeSort
        fun r r' ↦ le order (rowOf t r) (rowOf t r')).head? := by
  rw [h.select horder]
  exact first_map_eq fun r hr ↦ decode_select h hdecode hr

end Ordered

/-! ## Orders -/

section Orders

variable {a b : Row} {i j : Nat} {ta tb : Nat} {ia ib : Text} (hta : a.col i = .integer ta)
  (htb : b.col i = .integer tb) (hia : a.col j = .text ia) (hib : b.col j = .text ib)
include hta htb hia hib

/-- Newest first, and by id in either direction. -/
theorem le_newest (descending : Bool) : le [⟨i, true⟩, ⟨j, descending⟩] a b =
    (decide (tb < ta) || decide (ta = tb) &&
      if descending then decide (ib ≤ ia) else decide (ia ≤ ib)) := by
  simp only [le, hta, htb, hia, hib, Value.integer.injEq, Int.natCast_inj, Value.text.injEq, if_true,
    Value.integer_lt_integer, Value.text_lt_text, Int.ofNat_lt]
  by_cases ht : ta = tb
  · by_cases hi : ia = ib
    · cases descending <;> simp [ht, hi]
    · cases descending
      · simp [ht, hi, le_iff_lt_or_eq]
      · simp [ht, hi, Ne.symm hi, le_iff_lt_or_eq]
  · simp [ht]

/-- Oldest first, and by id. -/
theorem le_oldest : le [⟨i, false⟩, ⟨j, false⟩] a b =
    (decide (ta < tb) || decide (ta = tb) && decide (ia ≤ ib)) := by
  simp only [le, hta, htb, hia, hib, Value.integer.injEq, Int.natCast_inj, Value.text.injEq,
    Bool.false_eq_true, if_false, Value.integer_lt_integer, Value.text_lt_text, Int.ofNat_lt]
  by_cases ht : ta = tb
  · by_cases hi : ia = ib
    · simp [ht, hi]
    · simp [ht, hi, le_iff_lt_or_eq]
  · simp [ht]

end Orders

section MaxBy

variable {α : Type*} {gt r : α → α → Bool} (htotal : ∀ a b, (r a b || r b a) = true)
  (htrans : ∀ a b c, r a b = true → r b c = true → r a c = true)
include htotal htrans

/-- What is kept comes before everything that was seen. -/
theorem foldl_max_spec {a : α} {l : List α} (hgt : (a :: l).Pairwise fun a b ↦ gt a b = r a b) :
    (l.foldl (fun x y ↦ if gt x y then x else y) a) ∈ a :: l ∧
      ∀ b ∈ a :: l, r (l.foldl (fun x y ↦ if gt x y then x else y) a) b = true := by
  have hrefl : ∀ a, r a a = true := fun a ↦ by simpa using htotal a a
  induction l generalizing a with
  | nil => simp [hrefl]
  | cons b l ih =>
      obtain ⟨ha, hl⟩ := List.pairwise_cons.mp hgt
      obtain ⟨hb, hl'⟩ := List.pairwise_cons.mp hl
      rw [List.foldl_cons, ha b List.mem_cons_self]
      cases hab : r a b with
      | true =>
          obtain ⟨hmem, hle⟩ := ih (a := a) (hl'.cons fun x hx ↦ ha x (List.mem_cons_of_mem b hx))
          rw [if_pos rfl]
          refine ⟨?_, ?_⟩
          · rcases List.mem_cons.mp hmem with heq | hmem
            · exact List.mem_cons.mpr (Or.inl heq)
            · exact List.mem_cons_of_mem _ (List.mem_cons_of_mem _ hmem)
          · rintro x (_ | ⟨_, _ | ⟨_, hx⟩⟩)
            · exact hle a List.mem_cons_self
            · exact htrans _ _ _ (hle a List.mem_cons_self) hab
            · exact hle x (List.mem_cons_of_mem _ hx)
      | false =>
          have hba : r b a = true := by simpa [hab] using htotal a b
          obtain ⟨hmem, hle⟩ := ih (a := b) hl
          rw [if_neg Bool.false_ne_true]
          refine ⟨List.mem_cons_of_mem _ hmem, ?_⟩
          rintro x (_ | ⟨_, hx⟩)
          · exact htrans _ _ _ (hle b List.mem_cons_self) hba
          · exact hle x hx

/-- The greatest element is the first one in order, where the comparison agrees
with the order on what comes later. -/
theorem maxBy_eq_head? {l : List α} (hgt : l.Pairwise fun a b ↦ gt a b = r a b)
    (hantisymm : ∀ a ∈ l, ∀ b ∈ l, r a b = true → r b a = true → a = b) :
    InMemoryCache.maxBy gt l = (l.mergeSort r).head? := by
  cases l with
  | nil => rw [List.mergeSort_nil]; rfl
  | cons a l =>
      obtain ⟨hmem, hle⟩ := foldl_max_spec htotal htrans hgt
      have hsorted := List.pairwise_mergeSort htrans htotal (a :: l)
      cases hsort : (a :: l).mergeSort r with
      | nil =>
          have hlen := congrArg List.length hsort
          simp at hlen
      | cons b l' =>
          have hperm := List.mergeSort_perm (a :: l) r
          rw [hsort] at hsorted hperm
          obtain ⟨hb, -⟩ := List.pairwise_cons.mp hsorted
          have hbmem : b ∈ a :: l := hperm.mem_iff.mp List.mem_cons_self
          have hble : ∀ x ∈ a :: l, r b x = true := by
            intro x hx
            rcases List.mem_cons.mp (hperm.mem_iff.mpr hx) with rfl | hx
            · simpa using htotal x x
            · exact hb x hx
          exact congrArg some (hantisymm _ hmem b hbmem (hle b hbmem) (hble _ hmem))

end MaxBy

/-- What is not later is earlier, or of the same time and of no greater id. -/
theorem not_laterThan {α : Type*} (time : α → Nat) (id : α → Text) (a b : α) :
    (!InMemoryCache.laterThan time id a b) =
      (decide (time a < time b) || decide (time a = time b) && decide (id a ≤ id b)) := by
  unfold InMemoryCache.laterThan
  rcases lt_trichotomy (time a) (time b) with hlt | heq | hgt
  · simp [hlt, hlt.not_gt, hlt.ne]
  · simp [heq, ← not_le]
  · simp [hgt, hgt.not_gt, hgt.ne']

/-! ## Answers -/

section Answers

variable {c : InMemoryCache} {db : FrankenSqliteCache} (h : Simulates E c db)
include h

theorem Simulates.profile (profileId : Text) : db.profile profileId = .ok (c.profile profileId) :=
  h.first_key (t := .profiles) (k := profileId) (fun r _ ↦ rowProfile_rowOf r)
    fun r ↦ by simp [equals, rowOf, Row.col, Table.key]

theorem Simulates.catalogSnapshot (snapshotId : Text) :
    db.catalogSnapshot E snapshotId = .ok (c.catalogSnapshot snapshotId) :=
  h.first_key (t := .catalogSnapshots) (k := snapshotId) (fun r ↦ rowCatalogSnapshot_rowOf)
    fun r ↦ by simp [equals, rowOf, Row.col, Table.key]

theorem Simulates.datasetManifest (datasetId : Text) :
    db.datasetManifest E datasetId = .ok (c.datasetManifest datasetId) :=
  h.first_key (t := .datasetManifests) (k := datasetId) (fun r ↦ rowDatasetManifest_rowOf)
    fun r ↦ by simp [equals, rowOf, Row.col, Table.key]

theorem Simulates.queryPlan (planId : Text) : db.queryPlan planId = .ok (c.queryPlan planId) :=
  h.first_key (t := .queryPlans) (k := planId) (fun r _ ↦ rowQueryPlan_rowOf r)
    fun r ↦ by simp [equals, rowOf, Row.col, Table.key]

theorem Simulates.export (exportId : Text) : db.export exportId = .ok (c.export exportId) :=
  h.first_key (t := .exports) (k := exportId) (fun r ↦ rowExport_rowOf)
    fun r ↦ by simp [equals, rowOf, Row.col, Table.key]

omit h in
theorem first_take {ρ : Type} (decode : Row → CacheResult ρ) (rows : List Row) :
    first decode (rows.take 1) = first decode rows := by
  cases rows <;> rfl

theorem Simulates.queryReceipt (receiptId : Text) :
    db.queryReceipt E receiptId = .ok (c.queryReceipt receiptId) :=
  (first_take (rowQueryReceipt E) _).trans <| h.first_key (t := .queryReceipts) (k := receiptId)
    (fun r ↦ rowQueryReceipt_rowOf) fun r ↦ by simp [equals, rowOf, Row.col, Table.key]

omit h in
/-- An order by the id settles the order. -/
theorem key_eq_of_order {t : Table} (ht : primaryKeyColumns t = [0]) {order : List Term}
    {descending : Bool} (hmem : ⟨0, descending⟩ ∈ order) {p : Row → Bool} (r r' : t.Record) :
    p (rowOf t r) = true → p (rowOf t r') = true →
      (∀ term ∈ order, (rowOf t r).col term.column = (rowOf t r').col term.column) →
        t.key r = t.key r' := by
  intro _ _ hcols
  rw [← primaryKey_rowOf, ht, primaryKey, List.map_singleton, hcols _ hmem]
  rfl

theorem Simulates.auditEvents : db.auditEvents = .ok c.auditEvents := by
  refine (h.mapM_select (t := .auditLog) (fun r _ ↦ rowAuditEvent_rowOf r)
    (key_eq_of_order rfl (List.mem_of_getElem? (i := 1) rfl))).trans ?_
  rw [List.filter_true, InMemoryCache.auditEvents]
  congr 2
  funext r r'
  exact (le_oldest (a := rowOf .auditLog r) (b := rowOf .auditLog r') rfl rfl rfl rfl).trans
    (not_laterThan _ _ r r').symm

theorem Simulates.profiles : db.profiles = .ok c.profiles := by
  refine (h.mapM_select (t := .profiles) (fun r _ ↦ rowProfile_rowOf r)
    (key_eq_of_order rfl List.mem_cons_self)).trans ?_
  rw [List.filter_true, InMemoryCache.profiles, List.mergeSort_of_pairwise]
  refine (h.keyed .profiles).pairwise.imp fun {r r'} hlt ↦ ?_
  have hlt : r.profileId < r'.profileId := hlt
  simp [le, rowOf, Row.col, hlt, hlt.ne]

theorem Simulates.datasetIds : db.datasetIds = .ok c.datasetIds := by
  have hselect : Sql.select (fun _ ↦ true) [⟨0, false⟩] (db .datasetManifests) = _ :=
    h.select (key_eq_of_order (p := fun _ ↦ true) rfl List.mem_cons_self)
  have hsorted : ((c .datasetManifests).values.mergeSort fun r r' ↦
      le [⟨0, false⟩] (rowOf .datasetManifests r) (rowOf .datasetManifests r')) =
        (c .datasetManifests).values := by
    refine List.mergeSort_of_pairwise ((h.keyed .datasetManifests).pairwise.imp fun {r r'} hlt ↦ ?_)
    have hlt : r.datasetId < r'.datasetId := hlt
    simp [le, rowOf, Row.col, hlt, hlt.ne]
  unfold FrankenSqliteCache.datasetIds InMemoryCache.datasetIds
  rw [hselect, List.filter_true, hsorted, ← (h.keyed .datasetManifests).map_key, List.map_map]
  exact mapM_map_ok fun r _ ↦ rfl

theorem Simulates.partitionsForReceipt (receiptId : Text) :
    db.partitionsForReceipt receiptId = .ok (c.partitionsForReceipt receiptId) := by
  have hequals : ∀ r : PartitionMetadataRecord,
      equals 0 receiptId (rowOf .partitionMetadata r) = decide (r.receiptId = receiptId) := by
    intro r
    simp [equals, rowOf, Row.col]
  refine (h.mapM_select (t := .partitionMetadata) (fun r _ ↦ rowPartitionMetadata_rowOf r) ?_).trans ?_
  · intro r r' hr hr' hcols
    rw [hequals, decide_eq_true_eq] at hr hr'
    have hindex := hcols ⟨1, false⟩ List.mem_cons_self
    simp only [rowOf, Row.col, List.getD_cons_succ, List.getD_cons_zero, Value.integer.injEq] at hindex
    simp only [Table.key, hr, hr', Int.natCast_inj.mp hindex]
  · rw [InMemoryCache.partitionsForReceipt]
    simp only [hequals]
    rw [List.mergeSort_of_pairwise]
    refine List.pairwise_filter.mpr ?_
    refine (h.keyed .partitionMetadata).pairwise.imp fun {r r'} hlt hr hr' ↦ ?_
    rw [decide_eq_true_eq] at hr hr'
    have hindex : r.partitionIndex.toNat < r'.partitionIndex.toNat := by
      rcases Prod.Lex.lt_iff.mp hlt with hreceipt | ⟨-, hindex⟩
      · exact absurd (hr.trans hr'.symm) (ne_of_lt hreceipt)
      · exact hindex
    have hlt : (r.partitionIndex.toNat : Int) < r'.partitionIndex.toNat := Int.ofNat_lt.mpr hindex
    simp only [le, rowOf, Row.col, List.getD_cons_succ, List.getD_cons_zero, Value.integer.injEq,
      if_neg hlt.ne, Bool.false_eq_true, if_false, Value.integer_lt_integer, decide_eq_true_eq]
    exact hlt

theorem Simulates.exportsForReceipt (receiptId : Text) :
    db.exportsForReceipt receiptId = .ok (c.exportsForReceipt receiptId) := by
  refine (h.mapM_select (t := .exports) (fun r ↦ rowExport_rowOf)
    (key_eq_of_order rfl (List.mem_of_getElem? (i := 1) rfl))).trans ?_
  rw [InMemoryCache.exportsForReceipt]
  congr 2
  · refine List.filter_congr fun r _ ↦ ?_
    simp [equals, rowOf, Row.col]
  · funext r r'
    exact le_newest (a := rowOf .exports r) (b := rowOf .exports r') rfl rfl rfl rfl false

theorem Simulates.costHistoryForProfile (profileId : Text) :
    db.costHistoryForProfile profileId = .ok (c.costHistoryForProfile profileId) := by
  refine (h.mapM_select (t := .costHistory) (fun r _ ↦ rowCostHistory_rowOf r)
    (key_eq_of_order rfl (List.mem_of_getElem? (i := 1) rfl))).trans ?_
  rw [InMemoryCache.costHistoryForProfile]
  congr 2
  · refine List.filter_congr fun r _ ↦ ?_
    simp [equals, rowOf, Row.col]
  · funext r r'
    exact le_newest (a := rowOf .costHistory r) (b := rowOf .costHistory r') rfl rfl rfl rfl false

omit h in
theorem optText_eq_text {value : Option Text} {s : Text} : optText value = .text s ↔ value = some s := by
  cases value <;> simp [optText]

omit h in
theorem le_snapshot (r r' : CatalogSnapshotRecord) :
    le [⟨5, true⟩, ⟨0, true⟩] (rowOf .catalogSnapshots r) (rowOf .catalogSnapshots r') =
      !InMemoryCache.laterThan (·.capturedAtMs) (·.snapshotId) r' r := by
  refine (le_newest (a := rowOf .catalogSnapshots r) (b := rowOf .catalogSnapshots r')
    rfl rfl rfl rfl true).trans ?_
  rw [not_laterThan]
  simp [eq_comm]

omit h in
/-- The condition of a scope. -/
theorem scope_eq (profileId : Text) (databaseName schemaName : Option Text)
    (r : CatalogSnapshotRecord) :
    (equals 1 profileId (rowOf .catalogSnapshots r) &&
      equalsIfGiven 3 databaseName (rowOf .catalogSnapshots r) &&
        equalsIfGiven 4 schemaName (rowOf .catalogSnapshots r)) =
      InMemoryCache.inScope profileId databaseName schemaName r := by
  simp [equals, equalsIfGiven, InMemoryCache.inScope, rowOf, Row.col, optText_eq_text]

theorem Simulates.catalogSnapshots (profileId : Text) (databaseName schemaName : Option Text) :
    db.catalogSnapshots E profileId databaseName schemaName =
      .ok (c.catalogSnapshots profileId databaseName schemaName) := by
  refine (h.mapM_select (t := .catalogSnapshots) (fun r ↦ rowCatalogSnapshot_rowOf)
    (key_eq_of_order rfl (List.mem_of_getElem? (i := 1) rfl))).trans ?_
  simp only [scope_eq, le_snapshot]
  rfl

/-- A query for the newest record. -/
theorem Simulates.first_newest {t : Table} {decode : Row → CacheResult t.Record}
    {gt : t.Record → t.Record → Bool} {p : Row → Bool} {order : List Term}
    (hdecode : ∀ r, t.check E r = .ok () → decode (rowOf t r) = .ok r)
    (horder : ∀ r r', p (rowOf t r) = true → p (rowOf t r') = true →
      (∀ term ∈ order, (rowOf t r).col term.column = (rowOf t r').col term.column) →
        t.key r = t.key r')
    (hgt : ∀ r r', t.key r < t.key r' → gt r r' = le order (rowOf t r) (rowOf t r')) :
    first decode ((Sql.select p order (db t)).take 1) =
      .ok (InMemoryCache.maxBy gt ((c t).values.filter fun r ↦ p (rowOf t r))) := by
  rw [h.first_select hdecode horder]
  refine congrArg _ (maxBy_eq_head? (r := fun r r' ↦ le order (rowOf t r) (rowOf t r'))
    (fun r r' ↦ le_total order _ _) (fun r r' r'' ↦ le_trans order _ _ _) ?_ ?_).symm
  · exact ((h.keyed t).pairwise.imp fun {r r'} hlt ↦ hgt r r' hlt).filter _
  · intro r hr r' hr' hle hle'
    obtain ⟨hr, hp⟩ := List.mem_filter.mp hr
    obtain ⟨hr', hp'⟩ := List.mem_filter.mp hr'
    exact (h.keyed t).eq_of_key hr hr' (horder r r' hp hp' (col_eq_of_le hle hle'))

omit h in
theorem later_eq_le (r r' : CatalogSnapshotRecord)
    (hlt : Table.catalogSnapshots.key r < Table.catalogSnapshots.key r') :
    InMemoryCache.laterThan (·.capturedAtMs) (·.snapshotId) r r' =
      le [⟨5, true⟩, ⟨0, true⟩] (rowOf .catalogSnapshots r) (rowOf .catalogSnapshots r') := by
  have hlt : r.snapshotId < r'.snapshotId := hlt
  rw [le_snapshot, not_laterThan, InMemoryCache.laterThan]
  simp [hlt.not_gt, hlt.not_ge]

theorem Simulates.latestCatalogSnapshot (profileId : Text) (databaseName schemaName : Option Text) :
    db.latestCatalogSnapshot E profileId databaseName schemaName =
      .ok (c.latestCatalogSnapshot profileId databaseName schemaName) := by
  refine (h.first_newest (t := .catalogSnapshots) (fun r ↦ rowCatalogSnapshot_rowOf)
    (key_eq_of_order rfl (List.mem_of_getElem? (i := 1) rfl)) later_eq_le).trans ?_
  simp only [scope_eq]
  rfl

omit h in
/-- Among receipts of one time, the last one is the one of the greatest id. -/
theorem newer_eq_le (r r' : QueryReceiptRecord)
    (hlt : Table.queryReceipts.key r < Table.queryReceipts.key r') :
    decide (r'.createdAtMs < r.createdAtMs) =
      le [⟨14, true⟩, ⟨0, true⟩] (rowOf .queryReceipts r) (rowOf .queryReceipts r') := by
  have hlt : r.receiptId < r'.receiptId := hlt
  refine Eq.trans ?_ (le_newest (a := rowOf .queryReceipts r) (b := rowOf .queryReceipts r')
    rfl rfl rfl rfl true).symm
  simp [hlt.not_ge]

theorem Simulates.latestSuccessfulReceipt (planId : Text) :
    db.latestSuccessfulReceipt E planId = .ok (c.latestSuccessfulReceipt planId) := by
  refine (h.first_newest (t := .queryReceipts) (fun r ↦ rowQueryReceipt_rowOf)
    (key_eq_of_order rfl (List.mem_of_getElem? (i := 1) rfl)) newer_eq_le).trans ?_
  rw [InMemoryCache.latestSuccessfulReceipt]
  congr 2
  refine List.filter_congr fun r _ ↦ ?_
  simp [equals, rowOf, Row.col]

theorem Simulates.receiptBySnowflakeQueryId (profileId snowflakeQueryId : Text) :
    db.receiptBySnowflakeQueryId E profileId snowflakeQueryId =
      .ok (c.receiptBySnowflakeQueryId profileId snowflakeQueryId) := by
  refine (h.first_newest (t := .queryReceipts) (fun r ↦ rowQueryReceipt_rowOf)
    (key_eq_of_order rfl (List.mem_of_getElem? (i := 1) rfl)) newer_eq_le).trans ?_
  rw [InMemoryCache.receiptBySnowflakeQueryId]
  congr 2
  refine List.filter_congr fun r _ ↦ ?_
  simp [equals, rowOf, Row.col, optText_eq_text]

/-- SQLite answers as the tables in memory. -/
theorem Simulates.answer (l : Lookup) : db.answer E l = .ok (l.answer c) := by
  cases l <;> simp only [FrankenSqliteCache.answer, h.profile, h.profiles, h.catalogSnapshot,
    h.latestCatalogSnapshot, h.catalogSnapshots, h.datasetManifest, h.datasetIds, h.queryPlan,
    h.queryReceipt, h.latestSuccessfulReceipt, h.receiptBySnowflakeQueryId, h.partitionsForReceipt,
    h.exportsForReceipt, h.export, h.costHistoryForProfile, h.auditEvents] <;> rfl

end Answers

end FrankenSqliteCache

end FrankenSnowflake.Cache
