import FrankenSnowflake.Cache.Retention
import FrankenSnowflake.Cache.SqliteLookups

/-!
# Retention in SQLite

One query reads the ids of a table, newest first.  Grouped, they stand in the
order in which the tables in memory sort each group, so both backends drop the
same records.
-/

namespace FrankenSnowflake.Cache

open Foundation Foundation.Sql

variable {E : Crates}

namespace InMemoryCache

/-! ## Newest first -/

/-- The order of a group. -/
def newest (a b : Nat × Text) : Bool := !laterThan Prod.fst Prod.snd b a

theorem newest_eq (a b : Nat × Text) :
    newest a b = (decide (b.1 < a.1) || decide (a.1 = b.1) && decide (b.2 ≤ a.2)) := by
  rw [newest, FrankenSqliteCache.not_laterThan]
  simp only [eq_comm]

theorem newest_iff {a b : Nat × Text} : newest a b = true ↔ toLex b ≤ toLex a := by
  rw [newest_eq, Prod.Lex.toLex_le_toLex, Bool.or_eq_true, Bool.and_eq_true, decide_eq_true_eq,
    decide_eq_true_eq, decide_eq_true_eq, eq_comm]

theorem newest_antisymm {a b : Nat × Text} (hab : newest a b = true) (hba : newest b a = true) :
    a = b :=
  toLex.injective (le_antisymm (newest_iff.mp hba) (newest_iff.mp hab))

/-- What is in order is what sorting makes of its elements. -/
theorem eq_mergeSort_newest {l l' : List (Nat × Text)} (hperm : l.Perm l')
    (hsorted : l.Pairwise fun a b ↦ newest a b = true) : l = l'.mergeSort newest := by
  refine (hperm.trans (List.mergeSort_perm l' newest).symm).eq_of_pairwise
    (fun a b _ _ ↦ newest_antisymm) hsorted (List.pairwise_mergeSort ?_ ?_ l')
  · intro a b c hab hbc
    exact newest_iff.mpr ((newest_iff.mp hbc).trans (newest_iff.mp hab))
  · intro a b
    rw [Bool.or_eq_true, newest_iff, newest_iff]
    exact le_total _ _

/-! ## Groups -/

section Groups

variable {α κ : Type} [LinearOrder κ] {group : α → κ} {value : α → Nat × Text} {rs : List α}

/-- The groups of a list that has each group in order. -/
theorem groupBy_sorted {s : List α} (hperm : s.Perm rs)
    (hsorted : s.Pairwise fun a b ↦ group a = group b → newest (value a) (value b) = true) :
    groupBy Prod.fst Prod.snd (s.map fun a ↦ (group a, (value a).2)) =
      (groupBy group value rs).mapValues fun vs ↦ (vs.mergeSort newest).map Prod.snd := by
  refine SortedMap.ext fun k ↦ ?_
  have hfilter := hperm.filter (group · = k)
  have hgroup : (s.filter (group · = k)).map value =
      ((rs.filter (group · = k)).map value).mergeSort newest := by
    refine eq_mergeSort_newest (hfilter.map value) (List.pairwise_map.mpr ?_)
    refine List.Pairwise.imp_of_mem ?_ (hsorted.filter _)
    intro a b ha hb hab
    have hka : group a = k := of_decide_eq_true (List.mem_filter.mp ha).2
    have hkb : group b = k := of_decide_eq_true (List.mem_filter.mp hb).2
    exact hab (hka.trans hkb.symm)
  have hids : (s.filter (group · = k)).map (fun a ↦ (value a).2) =
      (((rs.filter (group · = k)).map value).mergeSort newest).map Prod.snd := by
    rw [← hgroup, List.map_map]
    rfl
  rw [get?_groupBy, SortedMap.get?_mapValues, get?_groupBy, List.filter_map, List.map_map]
  by_cases hk : rs.filter (group · = k) = []
  · have hs : s.filter (group · = k) = [] := List.perm_nil.mp (hk ▸ hfilter)
    simp [Function.comp_def, hk, hs]
  · have hs : s.filter (group · = k) ≠ [] := fun hs ↦ hk (List.nil_perm.mp (hs ▸ hfilter))
    simp only [Function.comp_def, List.map_eq_nil_iff, hk, hs, if_false, Option.map_some, hids]

/-- Both ways to find what stands behind the first ones of a group. -/
theorem idsBeyond_eq {s : List α} (hperm : s.Perm rs)
    (hsorted : s.Pairwise fun a b ↦ group a = group b → newest (value a) (value b) = true)
    (max : Nat) : FrankenSqliteCache.idsBeyond max (s.map fun a ↦ (group a, (value a).2)) =
      beyond max (groupBy group value rs) := by
  unfold FrankenSqliteCache.idsBeyond beyond
  rw [groupBy_sorted hperm hsorted, SortedMap.values_mapValues, List.flatMap_map]
  refine List.flatMap_congr fun vs _ ↦ ?_
  rw [← List.map_drop]
  rfl

/-- No id is dropped twice. -/
theorem nodup_beyond (hnodup : (rs.map fun a ↦ (value a).2).Nodup) (max : Nat) :
    (beyond max (groupBy group value rs)).Nodup := by
  have hgroup : ∀ e ∈ (groupBy group value rs).entries,
      e.2 = (rs.filter (group · = e.1)).map value := by
    intro e he
    have hget := SortedMap.mem_entries.mp he
    rw [get?_groupBy] at hget
    split_ifs at hget
    exact (Option.some.inj hget).symm
  have hids : ∀ vs : List (Nat × Text), ∀ id ∈ ((vs.mergeSort newest).drop max).map Prod.snd,
      ∃ v ∈ vs, v.2 = id := by
    intro vs id hid
    obtain ⟨v, hv, rfl⟩ := List.mem_map.mp hid
    exact ⟨v, List.mem_mergeSort.mp (List.mem_of_mem_drop hv), rfl⟩
  unfold beyond
  rw [SortedMap.values, List.flatMap_map, List.nodup_flatMap]
  constructor
  · intro e he
    have hperm := (List.mergeSort_perm e.2 newest).map Prod.snd
    refine List.Nodup.sublist ((List.drop_sublist max _).map Prod.snd) (hperm.nodup_iff.mpr ?_)
    rw [hgroup e he, List.map_map]
    exact hnodup.sublist (List.filter_sublist.map _)
  · refine List.Pairwise.imp_of_mem ?_ (groupBy group value rs).sorted
    intro e e' he he' hlt id hid hid'
    obtain ⟨v, hv, rfl⟩ := hids _ id hid
    obtain ⟨v', hv', heq⟩ := hids _ _ hid'
    rw [hgroup e he] at hv
    rw [hgroup e' he'] at hv'
    obtain ⟨a, ha, rfl⟩ := List.mem_map.mp hv
    obtain ⟨a', ha', rfl⟩ := List.mem_map.mp hv'
    have hsame : a = a' := List.inj_on_of_nodup_map hnodup (List.mem_of_mem_filter ha)
      (List.mem_of_mem_filter ha') heq.symm
    have hka : group a = e.1 := of_decide_eq_true (List.mem_filter.mp ha).2
    have hka' : group a' = e'.1 := of_decide_eq_true (List.mem_filter.mp ha').2
    exact hlt.ne (hka.symm.trans ((congrArg group hsame).trans hka'))

end Groups

/-! ## Counts -/

/-- Every id that is there counts once. -/
theorem count_foldl {evict : InMemoryCache × Nat → Text → InMemoryCache × Nat}
    {P : InMemoryCache → Text → Prop}
    (hcount : ∀ s id, P s.1 id → (evict s id).2 = s.2 + 1)
    (hkeep : ∀ s id id', id' ≠ id → P s.1 id' → P (evict s id).1 id') {ids : List Text}
    (hnodup : ids.Nodup) {s : InMemoryCache × Nat} (h : ∀ id ∈ ids, P s.1 id) :
    (ids.foldl evict s).2 = s.2 + ids.length := by
  induction ids generalizing s with
  | nil => rfl
  | cons id ids ih =>
      obtain ⟨hid, hids⟩ := List.forall_mem_cons.mp h
      obtain ⟨hmem, hnodup⟩ := List.nodup_cons.mp hnodup
      have hthere : ∀ id' ∈ ids, P (evict s id).1 id' := fun id' hid' ↦
        hkeep s id id' (fun heq ↦ hmem (heq ▸ hid')) (hids id' hid')
      rw [List.foldl_cons, ih hnodup hthere, hcount s id hid, List.length_cons]
      omega

theorem isSome_get?_filter_ne {ρ : Type} {m : SortedMap Text ρ} {k k' : Text} (hne : k' ≠ k)
    (h : (m.get? k').isSome) : ((m.filter fun k' _ ↦ decide (k' ≠ k)).get? k').isSome := by
  obtain ⟨r, hr⟩ := Option.isSome_iff_exists.mp h
  rw [SortedMap.get?_filter, hr, Option.filter_some, if_pos (decide_eq_true hne)]
  rfl

theorem count_evictReceipt {ids : List Text} (hnodup : ids.Nodup) {s : InMemoryCache × Nat}
    (h : ∀ id ∈ ids, ((s.1 .queryReceipts).get? id).isSome) :
    (ids.foldl evictReceipt s).2 = s.2 + ids.length := by
  refine count_foldl (P := fun c id ↦ ((c .queryReceipts).get? id).isSome) ?_ ?_ hnodup h
  · intro s id hid
    rw [evictReceipt, if_pos hid]
  · intro s id id' hne hid'
    unfold evictReceipt
    split_ifs
    · exact isSome_get?_filter_ne hne hid'
    · exact hid'

theorem count_evictSnapshot {ids : List Text} (hnodup : ids.Nodup) {s : InMemoryCache × Nat}
    (h : ∀ id ∈ ids, ((s.1 .catalogSnapshots).get? id).isSome) :
    (ids.foldl evictSnapshot s).2 = s.2 + ids.length := by
  refine count_foldl (P := fun c id ↦ ((c .catalogSnapshots).get? id).isSome) ?_ ?_ hnodup h
  · intro s id hid
    rw [evictSnapshot, if_pos hid]
  · intro s id id' hne hid'
    unfold evictSnapshot
    split_ifs
    · dsimp only
      rw [Function.update_self]
      exact isSome_get?_filter_ne hne hid'
    · exact hid'

end InMemoryCache

theorem nodup_droppedReceipts {c : InMemoryCache} (hc : Keyed .queryReceipts (c .queryReceipts))
    (policy : RetentionPolicy) : (droppedReceipts c policy).Nodup := by
  unfold droppedReceipts
  cases policy.maxReceiptsPerProfile with
  | none => exact List.nodup_nil
  | some max => exact InMemoryCache.nodup_beyond hc.nodup max

theorem nodup_droppedSnapshots {c : InMemoryCache}
    (hc : Keyed .catalogSnapshots (c .catalogSnapshots)) (policy : RetentionPolicy) :
    (droppedSnapshots c policy).Nodup := by
  unfold droppedSnapshots
  cases policy.maxSnapshotsPerScope with
  | none => exact List.nodup_nil
  | some max => exact InMemoryCache.nodup_beyond hc.nodup max

theorem isSome_of_mem_droppedSnapshots {c : InMemoryCache}
    (hc : Keyed .catalogSnapshots (c .catalogSnapshots)) {policy : RetentionPolicy} {id : Text}
    (h : id ∈ droppedSnapshots c policy) : ((c .catalogSnapshots).get? id).isSome := by
  unfold droppedSnapshots at h
  cases hmax : policy.maxSnapshotsPerScope with
  | none => simp [hmax] at h
  | some max =>
      rw [hmax] at h
      obtain ⟨r, hr, rfl⟩ := InMemoryCache.exists_of_mem_beyond h
      exact Option.isSome_iff_exists.mpr ⟨r, hc.mem_values.mp hr⟩

/-- How many records retention evicts. -/
theorem applyRetentionInMemory_snd {c : InMemoryCache} (hc : ∀ t, Keyed t (c t))
    (policy : RetentionPolicy) : (c.applyRetentionInMemory policy).2 =
      (droppedReceipts c policy).length + (droppedSnapshots c policy).length := by
  have hreceipts : ((droppedReceipts c policy).foldl InMemoryCache.evictReceipt (c, 0)).1 =
      c.withoutReceipts (droppedReceipts c policy) :=
    InMemoryCache.foldl_evictReceipt fun id hid ↦
      Or.inl (isSome_of_mem_droppedReceipts (hc .queryReceipts) hid)
  have hsnapshots : droppedSnapshots (c.withoutReceipts (droppedReceipts c policy)) policy =
      droppedSnapshots c policy := droppedSnapshots_congr rfl policy
  have hthere : ∀ id ∈ droppedSnapshots c policy,
      ((c.withoutReceipts (droppedReceipts c policy) .catalogSnapshots).get? id).isSome :=
    fun id hid ↦ isSome_of_mem_droppedSnapshots (hc .catalogSnapshots) hid
  rw [applyRetentionInMemory_eq, hreceipts, hsnapshots, InMemoryCache.count_evictSnapshot,
    InMemoryCache.count_evictReceipt (nodup_droppedReceipts (hc .queryReceipts) policy), Nat.zero_add]
  · exact fun id hid ↦ isSome_of_mem_droppedReceipts (hc .queryReceipts) hid
  · exact nodup_droppedSnapshots (hc .catalogSnapshots) policy
  · rwa [hreceipts]

namespace FrankenSqliteCache

variable {c : InMemoryCache} {db : FrankenSqliteCache}

/-! ## What is dropped -/

theorem le_of_col_eq {term : Term} {order : List Term} {a b : Row}
    (h : a.col term.column = b.col term.column) : le (term :: order) a b = le order a b := by
  rw [le, if_pos h]

section Drop

variable (h : Simulates E c db) {t : Table} {κ : Type} [LinearOrder κ] {group : t.Record → κ}
  {v : t.Record → Nat × Text} {i j : Nat}
include h

/-- The rows by a group's first column, newest first. -/
theorem Simulates.select_newest (ht : primaryKeyColumns t = [0]) :
    Sql.select (fun _ ↦ true) [⟨i, false⟩, ⟨j, true⟩, ⟨0, true⟩] (db t) =
      ((c t).values.mergeSort fun r r' ↦
        le [⟨i, false⟩, ⟨j, true⟩, ⟨0, true⟩] (rowOf t r) (rowOf t r')).map (rowOf t) := by
  rw [h.select (key_eq_of_order (p := fun _ ↦ true) ht (List.mem_of_getElem? (i := 2) rfl)),
    List.filter_true]

omit h in
theorem idsBeyond_newest (hgroup : ∀ r r', group r = group r' → (rowOf t r).col i = (rowOf t r').col i)
    (htime : ∀ r, (rowOf t r).col j = .integer (v r).1)
    (hid : ∀ r, (rowOf t r).col 0 = .text (v r).2) (rs : List t.Record) (max : Nat) :
    idsBeyond max ((rs.mergeSort fun r r' ↦
        le [⟨i, false⟩, ⟨j, true⟩, ⟨0, true⟩] (rowOf t r) (rowOf t r')).map
          fun r ↦ (group r, (v r).2)) =
      InMemoryCache.beyond max (InMemoryCache.groupBy group v rs) := by
  refine InMemoryCache.idsBeyond_eq (List.mergeSort_perm _ _) ?_ max
  have hsorted := List.pairwise_mergeSort (fun r r' r'' ↦ le_trans [⟨i, false⟩, ⟨j, true⟩, ⟨0, true⟩]
    (rowOf t r) (rowOf t r') (rowOf t r'')) (fun r r' ↦ le_total _ _ _) rs
  refine hsorted.imp fun {r r'} hle hsame ↦ ?_
  have hcol : (rowOf t r).col (Term.mk i false).column = (rowOf t r').col (Term.mk i false).column :=
    hgroup r r' hsame
  rw [le_of_col_eq hcol, le_newest (htime r) (htime r') (hid r) (hid r') true] at hle
  rw [InMemoryCache.newest_eq]
  exact hle

end Drop

theorem receiptsToDrop_eq (h : Simulates E c db) (max : Nat) :
    db.receiptsToDrop max = .ok (c.receiptsToDrop max) := by
  unfold FrankenSqliteCache.receiptsToDrop
  rw [h.select_newest rfl, List.map_map]
  dsimp only
  rw [mapM_map_ok (v := fun r : QueryReceiptRecord ↦ (r.profileId, r.receiptId)) fun r _ ↦ rfl]
  refine congrArg _ (idsBeyond_newest (t := .queryReceipts)
    (v := fun r ↦ (r.createdAtMs, r.receiptId)) ?_ (fun r ↦ rfl) (fun r ↦ rfl) _ max)
  intro r r' hprofile
  exact congrArg Value.text hprofile

theorem snapshotsToDrop_eq (h : Simulates E c db) (max : Nat) :
    db.snapshotsToDrop max = .ok (c.snapshotsToDrop max) := by
  have hdecode : ∀ r ∈ (c .catalogSnapshots).values.mergeSort fun r r' ↦
      le [⟨1, false⟩, ⟨5, true⟩, ⟨0, true⟩] (rowOf .catalogSnapshots r) (rowOf .catalogSnapshots r'),
      (do
        let row := (project [1, 3, 4, 0] ∘ rowOf .catalogSnapshots) r
        let profileId ← rowText row 0 "profile_id"
        let databaseName ← rowOptText row 1 "database_name"
        let schemaName ← rowOptText row 2 "schema_name"
        let snapshotId ← rowText row 3 "snapshot_id"
        return ((toLex (profileId, toLex (databaseName.elim ⊥ (↑), schemaName.elim ⊥ (↑))) :
          InMemoryCache.ScopeKey), snapshotId)) =
        (.ok (InMemoryCache.scopeKey r, r.snapshotId) : CacheResult _) := by
    intro r _
    simp [project, rowOf, Row.col]
    rfl
  unfold FrankenSqliteCache.snapshotsToDrop
  rw [h.select_newest rfl, List.map_map]
  dsimp only
  rw [mapM_map_ok hdecode]
  refine congrArg _ (idsBeyond_newest (t := .catalogSnapshots)
    (v := fun r ↦ (r.capturedAtMs, r.snapshotId)) ?_ (fun r ↦ rfl) (fun r ↦ rfl) _ max)
  intro r r' hscope
  exact congrArg (fun k : InMemoryCache.ScopeKey ↦ Value.text (ofLex k).1) hscope

/-! ## Deletions -/

theorem delete_delete (p q : Row → Bool) (rows : List Row) :
    delete q (delete p rows) = delete (fun row ↦ p row || q row) rows := by
  simp only [delete, List.filter_filter, Bool.not_or, Bool.and_comm]

theorem delete_nothing (rows : List Row) : delete (fun _ ↦ false) rows = rows :=
  List.filter_true rows

/-- Rows of a receipt of a list are deleted. -/
theorem foldl_deleteReceipt (ids : List Text) (db : FrankenSqliteCache) :
    ids.foldl deleteReceipt db = Function.update (Function.update db .partitionMetadata
        (delete (fun row ↦ ids.any (equals 0 · row)) (db .partitionMetadata)))
      .queryReceipts (delete (fun row ↦ ids.any (equals 0 · row)) (db .queryReceipts)) := by
  induction ids generalizing db with
  | nil =>
      funext t
      cases t <;> simp [Function.update, delete_nothing]
  | cons id ids ih =>
      rw [List.foldl_cons, ih]
      funext t
      cases t <;> simp [Function.update, deleteReceipt, delete_delete]

theorem foldl_deleteSnapshot (ids : List Text) (db : FrankenSqliteCache) :
    ids.foldl deleteSnapshot db = Function.update db .catalogSnapshots
      (delete (fun row ↦ ids.any (equals 0 · row)) (db .catalogSnapshots)) := by
  induction ids generalizing db with
  | nil =>
      funext t
      cases t <;> simp [Function.update, delete_nothing]
  | cons id ids ih =>
      rw [List.foldl_cons, ih]
      funext t
      cases t <;> simp [Function.update, deleteSnapshot, delete_delete]

section ApplyRetention

variable (h : Simulates E c db) (policy : RetentionPolicy)
include h

theorem evict_receipts : db.evict receiptsToDrop deleteReceipt policy.maxReceiptsPerProfile =
    (.ok (droppedReceipts c policy).length, (droppedReceipts c policy).foldl deleteReceipt db) := by
  unfold evict droppedReceipts
  cases policy.maxReceiptsPerProfile with
  | none => rfl
  | some max => simp only [receiptsToDrop_eq h, Option.elim_some]

theorem evict_snapshots {d : FrankenSqliteCache}
    (hdb : d .catalogSnapshots = db .catalogSnapshots) :
    d.evict snapshotsToDrop deleteSnapshot policy.maxSnapshotsPerScope =
      (.ok (droppedSnapshots c policy).length, (droppedSnapshots c policy).foldl deleteSnapshot d) := by
  have hdrop : ∀ max, d.snapshotsToDrop max = .ok (c.snapshotsToDrop max) := by
    intro max
    rw [← snapshotsToDrop_eq h max, FrankenSqliteCache.snapshotsToDrop, hdb]
    rfl
  unfold evict droppedSnapshots
  cases policy.maxSnapshotsPerScope with
  | none => rfl
  | some max => simp only [hdrop, Option.elim_some]

/-- The rows that retention leaves of a table. -/
theorem Simulates.retained {t : Table} {p : Row → Bool}
    (hp : ∀ r : t.Record, p (rowOf t r) = evictedKeys c policy t (t.key r)) :
    Represents (rowOf t) ((c.applyRetentionInMemory policy).1 t) (delete p (db t)) := by
  rw [applyRetentionInMemory_fst (h.keyed .queryReceipts)]
  refine (h.rows t).delete fun k r hr ↦ ?_
  rw [hp, h.keyed t k r hr]

/-- Both backends evict the same records. -/
theorem Simulates.applyRetention : ∃ db',
    db.applyRetention policy = (.ok (c.applyRetentionInMemory policy).2, db') ∧
      Simulates E (c.applyRetentionInMemory policy).1 db' := by
  have hsnapshots := evict_snapshots h policy
    (d := (droppedReceipts c policy).foldl deleteReceipt db) (by rw [foldl_deleteReceipt]; rfl)
  unfold FrankenSqliteCache.applyRetention
  rw [evict_receipts h policy]
  dsimp only
  rw [hsnapshots, applyRetentionInMemory_snd h.keyed]
  refine ⟨_, rfl, fun t ↦ ?_, fun t ↦ ?_, fun t ↦ ?_⟩
  · have hnone : ∀ t, (∀ r : t.Record, evictedKeys c policy t (t.key r) = false) →
        Represents (rowOf t) ((c.applyRetentionInMemory policy).1 t) (db t) := by
      intro t hkeys
      have hrows := h.retained policy (t := t) (p := fun _ ↦ false) fun r ↦ (hkeys r).symm
      rwa [delete_nothing] at hrows
    rw [foldl_deleteSnapshot, foldl_deleteReceipt]
    cases t with
    | queryReceipts =>
        exact h.retained policy (t := .queryReceipts) fun r ↦ by
          simp only [equals, rowOf, Row.col, evictedKeys, Table.key, List.getD_cons_zero,
            Value.text.injEq, List.any_eq, decide_eq_true_eq, exists_eq_right']
          exact decide_eq_decide.mpr Iff.rfl
    | partitionMetadata =>
        exact h.retained policy (t := .partitionMetadata) fun r ↦ by
          simp only [equals, rowOf, Row.col, evictedKeys, Table.key, List.getD_cons_zero,
            Value.text.injEq, List.any_eq, decide_eq_true_eq, exists_eq_right']
          exact decide_eq_decide.mpr Iff.rfl
    | catalogSnapshots =>
        exact h.retained policy (t := .catalogSnapshots) fun r ↦ by
          simp only [equals, rowOf, Row.col, evictedKeys, Table.key, List.getD_cons_zero,
            Value.text.injEq, List.any_eq, decide_eq_true_eq, exists_eq_right']
          exact decide_eq_decide.mpr Iff.rfl
    | profiles => exact hnone .profiles fun _ ↦ rfl
    | datasetManifests => exact hnone .datasetManifests fun _ ↦ rfl
    | queryPlans => exact hnone .queryPlans fun _ ↦ rfl
    | exports => exact hnone .exports fun _ ↦ rfl
    | costHistory => exact hnone .costHistory fun _ ↦ rfl
    | replayBundles => exact hnone .replayBundles fun _ ↦ rfl
    | auditLog => exact hnone .auditLog fun _ ↦ rfl
  · rw [applyRetentionInMemory_fst (h.keyed .queryReceipts)]
    exact (h.keyed t).without _
  · rw [applyRetentionInMemory_fst (h.keyed .queryReceipts)]
    exact (h.checked t).without _

end ApplyRetention

end FrankenSqliteCache

end FrankenSnowflake.Cache
