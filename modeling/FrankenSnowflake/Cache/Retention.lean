import FrankenSnowflake.Cache.FileLog

/-!
# What retention leaves

Retention goes through the ids that it drops one after the other.  Together they
filter the three tables that it goes over.
-/

namespace FrankenSnowflake.Cache

open Foundation

attribute [local instance] lawfulBEq_text

namespace InMemoryCache

/-! ## Groups -/

section Groups

variable {α κ β : Type} [LinearOrder κ] {group : α → κ} {value : α → β}

theorem get?_foldl_group (l : List α) (m : SortedMap κ (List β)) (k : κ) :
    (l.foldl (fun m a ↦ m.insert (group a) (((m.get? (group a)).getD []) ++ [value a])) m).get? k =
      if l.filter (group · = k) = [] then m.get? k
      else some ((m.get? k).getD [] ++ (l.filter (group · = k)).map value) := by
  induction l generalizing m with
  | nil => rfl
  | cons a l ih =>
      rw [List.foldl_cons, ih, SortedMap.get?_insert]
      by_cases ha : group a = k
      · subst ha
        by_cases hl : l.filter (group · = group a) = []
        · simp [hl]
        · simp [hl]
      · simp [ha, Ne.symm ha]

theorem get?_groupBy (l : List α) (k : κ) :
    (groupBy group value l).get? k = if l.filter (group · = k) = [] then none
      else some ((l.filter (group · = k)).map value) := by
  rw [groupBy, get?_foldl_group]
  rfl

/-- What stands behind the first ones of its group is of the list. -/
theorem exists_of_mem_beyond {group : α → κ} {value : α → Nat × Text} {max : Nat} {l : List α}
    {id : Text} (h : id ∈ beyond max (groupBy group value l)) : ∃ a ∈ l, (value a).2 = id := by
  obtain ⟨vs, hvs, hid⟩ := List.mem_flatMap.mp h
  obtain ⟨k, hk⟩ := SortedMap.mem_values.mp hvs
  obtain ⟨v, hv, rfl⟩ := List.mem_map.mp hid
  have hmem : v ∈ vs := List.mem_mergeSort.mp (List.mem_of_mem_drop hv)
  rw [get?_groupBy] at hk
  split_ifs at hk
  rw [← Option.some.inj hk] at hmem
  obtain ⟨a, ha, rfl⟩ := List.mem_map.mp hmem
  exact ⟨a, List.mem_of_mem_filter ha, rfl⟩

end Groups

/-! ## Evictions -/

/-- A receipt that is there, or none of whose partitions is. -/
def Evictable (c : InMemoryCache) (id : Text) : Prop :=
  ((c .queryReceipts).get? id).isSome ∨
    ∀ k ∈ (c .partitionMetadata).keys, (ofLex k).1 ≠ id

/-- The tables without receipts and their partitions. -/
def withoutReceipts (c : InMemoryCache) (ids : List Text) : InMemoryCache :=
  Function.update (Function.update c .queryReceipts
      ((c .queryReceipts).filter fun k _ ↦ decide (k ∉ ids)))
    .partitionMetadata ((c .partitionMetadata).filter fun k _ ↦ decide ((ofLex k).1 ∉ ids))

theorem evictReceipt_fst {s : InMemoryCache × Nat} {id : Text} (h : Evictable s.1 id) :
    (evictReceipt s id).1 = s.1.withoutReceipts [id] := by
  unfold evictReceipt withoutReceipts
  simp only [List.mem_singleton]
  split_ifs with hget
  · rfl
  · have hreceipts : ((s.1 .queryReceipts).filter fun k _ ↦ decide (k ≠ id)) = s.1 .queryReceipts := by
      refine SortedMap.filter_eq_self _ fun k hk ↦ ?_
      rw [SortedMap.mem_keys] at hk
      rw [decide_eq_true_eq]
      rintro rfl
      exact hget hk
    have hpartitions := (s.1 .partitionMetadata).filter_eq_self
      (p := fun k ↦ decide ((ofLex k).1 ≠ id))
      fun k hk ↦ decide_eq_true (h.resolve_left hget k hk)
    rw [hreceipts, hpartitions, Function.update_eq_self, Function.update_eq_self]

theorem withoutReceipts_withoutReceipts (c : InMemoryCache) (ids ids' : List Text) :
    (c.withoutReceipts ids).withoutReceipts ids' = c.withoutReceipts (ids ++ ids') := by
  funext t
  cases t <;> simp [withoutReceipts, Function.update, SortedMap.filter_filter, not_or]

@[simp] theorem withoutReceipts_queryReceipts (c : InMemoryCache) (ids : List Text) :
    c.withoutReceipts ids .queryReceipts =
      (c .queryReceipts).filter fun k _ ↦ decide (k ∉ ids) := rfl

@[simp] theorem withoutReceipts_partitionMetadata (c : InMemoryCache) (ids : List Text) :
    c.withoutReceipts ids .partitionMetadata =
      (c .partitionMetadata).filter fun k _ ↦ decide ((ofLex k).1 ∉ ids) := rfl

theorem Evictable.withoutReceipts {c : InMemoryCache} {id : Text} (h : Evictable c id)
    (ids : List Text) : Evictable (c.withoutReceipts ids) id := by
  by_cases hid : id ∈ ids
  · refine Or.inr fun k hk heq ↦ ?_
    rw [withoutReceipts_partitionMetadata, SortedMap.mem_keys, SortedMap.get?_filter,
      Option.isSome_iff_exists] at hk
    obtain ⟨r, hr⟩ := hk
    exact of_decide_eq_true (Option.filter_eq_some_iff.mp hr).2 (heq ▸ hid)
  · refine h.imp (fun hget ↦ ?_) fun hnone k hk ↦ hnone k ?_
    · obtain ⟨r, hr⟩ := Option.isSome_iff_exists.mp hget
      rw [withoutReceipts_queryReceipts, SortedMap.get?_filter, hr, Option.filter_some,
        if_pos (decide_eq_true hid)]
      rfl
    · rw [withoutReceipts_partitionMetadata, SortedMap.mem_keys, SortedMap.get?_filter,
        Option.isSome_iff_exists] at hk
      obtain ⟨r, hr⟩ := hk
      rw [SortedMap.mem_keys, (Option.filter_eq_some_iff.mp hr).1]
      rfl

theorem foldl_evictReceipt {ids : List Text} {s : InMemoryCache × Nat}
    (h : ∀ id ∈ ids, Evictable s.1 id) :
    (ids.foldl evictReceipt s).1 = s.1.withoutReceipts ids := by
  induction ids generalizing s with
  | nil =>
      funext t
      cases t <;> simp [withoutReceipts, Function.update, SortedMap.filter_eq_self]
  | cons id ids ih =>
      obtain ⟨hid, hids⟩ := List.forall_mem_cons.mp h
      rw [List.foldl_cons, ih, evictReceipt_fst hid, withoutReceipts_withoutReceipts]
      · rfl
      · intro id' hid'
        rw [evictReceipt_fst hid]
        exact (hids id' hid').withoutReceipts [id]

theorem foldl_evictSnapshot (ids : List Text) (s : InMemoryCache × Nat) :
    (ids.foldl evictSnapshot s).1 = Function.update s.1 .catalogSnapshots
      ((s.1 .catalogSnapshots).filter fun k _ ↦ decide (k ∉ ids)) := by
  induction ids generalizing s with
  | nil =>
      rw [SortedMap.filter_eq_self _ (by simp), Function.update_eq_self]
      rfl
  | cons id ids ih =>
      rw [List.foldl_cons, ih]
      unfold evictSnapshot
      split_ifs with hget
      · dsimp only
        rw [Function.update_self, Function.update_idem, SortedMap.filter_filter]
        simp [not_or]
      · congr 1
        refine SortedMap.ext fun k ↦ ?_
        rw [SortedMap.get?_filter, SortedMap.get?_filter]
        by_cases hk : k = id
        · subst hk
          rw [Option.not_isSome_iff_eq_none.mp hget]
          rfl
        · simp [hk]

/-- A step that changes the tables counts one more record. -/
theorem evicted_foldl {evict : InMemoryCache × Nat → Text → InMemoryCache × Nat}
    (hevict : ∀ s id, evict s id = s ∨ s.2 < (evict s id).2) (ids : List Text)
    (s : InMemoryCache × Nat) : ids.foldl evict s = s ∨ s.2 < (ids.foldl evict s).2 := by
  induction ids generalizing s with
  | nil => exact Or.inl rfl
  | cons id ids ih =>
      rw [List.foldl_cons]
      rcases hevict s id with heq | hlt
      · rw [heq]
        exact ih s
      · rcases ih (evict s id) with heq | hlt'
        · rw [heq]
          exact Or.inr hlt
        · exact Or.inr (hlt.trans hlt')

theorem evictReceipt_count (s : InMemoryCache × Nat) (id : Text) :
    evictReceipt s id = s ∨ s.2 < (evictReceipt s id).2 := by
  unfold evictReceipt
  split_ifs
  · exact Or.inr (Nat.lt_succ_self _)
  · exact Or.inl rfl

theorem evictSnapshot_count (s : InMemoryCache × Nat) (id : Text) :
    evictSnapshot s id = s ∨ s.2 < (evictSnapshot s id).2 := by
  unfold evictSnapshot
  split_ifs
  · exact Or.inr (Nat.lt_succ_self _)
  · exact Or.inl rfl

end InMemoryCache

/-! ## Retention -/

theorem isSome_of_mem_droppedReceipts {c : InMemoryCache} (hc : Keyed .queryReceipts (c .queryReceipts))
    {policy : RetentionPolicy} {id : Text} (h : id ∈ droppedReceipts c policy) :
    ((c .queryReceipts).get? id).isSome := by
  unfold droppedReceipts at h
  cases hmax : policy.maxReceiptsPerProfile with
  | none => simp [hmax] at h
  | some max =>
      rw [hmax] at h
      obtain ⟨r, hr, rfl⟩ := InMemoryCache.exists_of_mem_beyond h
      exact Option.isSome_iff_exists.mpr ⟨r, hc.mem_values.mp hr⟩

theorem applyRetentionInMemory_eq (c : InMemoryCache) (policy : RetentionPolicy) :
    c.applyRetentionInMemory policy =
      (droppedSnapshots ((droppedReceipts c policy).foldl InMemoryCache.evictReceipt (c, 0)).1
        policy).foldl InMemoryCache.evictSnapshot
          ((droppedReceipts c policy).foldl InMemoryCache.evictReceipt (c, 0)) := by
  obtain ⟨receipts, snapshots⟩ := policy
  cases receipts <;> cases snapshots <;> rfl

theorem droppedSnapshots_congr {c c' : InMemoryCache} (h : c .catalogSnapshots = c' .catalogSnapshots)
    (policy : RetentionPolicy) : droppedSnapshots c policy = droppedSnapshots c' policy := by
  unfold droppedSnapshots InMemoryCache.snapshotsToDrop
  rw [h]

/-- Retention filters each table. -/
theorem applyRetentionInMemory_fst {c : InMemoryCache} (hc : Keyed .queryReceipts (c .queryReceipts))
    (policy : RetentionPolicy) (t : Table) :
    (c.applyRetentionInMemory policy).1 t = (c t).filter fun k _ ↦ !evictedKeys c policy t k := by
  have hreceipts : ((droppedReceipts c policy).foldl InMemoryCache.evictReceipt (c, 0)).1 =
      c.withoutReceipts (droppedReceipts c policy) :=
    InMemoryCache.foldl_evictReceipt fun id hid ↦ Or.inl (isSome_of_mem_droppedReceipts hc hid)
  have hsnapshots : droppedSnapshots (c.withoutReceipts (droppedReceipts c policy)) policy =
      droppedSnapshots c policy := droppedSnapshots_congr rfl policy
  rw [applyRetentionInMemory_eq, InMemoryCache.foldl_evictSnapshot, hreceipts, hsnapshots]
  cases t <;> simp [Function.update, evictedKeys, InMemoryCache.withoutReceipts,
    SortedMap.filter_eq_self]

theorem applyRetentionInMemory_zero {c : InMemoryCache} {policy : RetentionPolicy}
    (h : (c.applyRetentionInMemory policy).2 = 0) : (c.applyRetentionInMemory policy).1 = c := by
  rw [applyRetentionInMemory_eq] at h ⊢
  rcases InMemoryCache.evicted_foldl InMemoryCache.evictSnapshot_count (droppedSnapshots
    ((droppedReceipts c policy).foldl InMemoryCache.evictReceipt (c, 0)).1 policy)
    ((droppedReceipts c policy).foldl InMemoryCache.evictReceipt (c, 0)) with heq | hlt
  · rw [heq] at h ⊢
    rcases InMemoryCache.evicted_foldl InMemoryCache.evictReceipt_count (droppedReceipts c policy)
      (c, 0) with heq | hlt
    · rw [heq]
    · rw [h] at hlt
      exact absurd hlt (Nat.not_lt_zero _)
  · rw [h] at hlt
    exact absurd hlt (Nat.not_lt_zero _)

/-! ## Tables without records -/

variable {E : Crates}

/-- The records whose keys are not evicted. -/
def without {t : Table} (m : SortedMap t.Key t.Record) (evicted : t.Key → Bool) :
    SortedMap t.Key t.Record :=
  m.filter fun k _ ↦ !evicted k

theorem get?_without {t : Table} (m : SortedMap t.Key t.Record) (evicted : t.Key → Bool)
    (k : t.Key) : (without m evicted).get? k = if evicted k then none else m.get? k := by
  rw [without, SortedMap.get?_filter]
  cases m.get? k <;> cases evicted k <;> rfl

theorem without_none {t : Table} (m : SortedMap t.Key t.Record) : without m (fun _ ↦ false) = m :=
  SortedMap.filter_eq_self m fun _ _ ↦ rfl

theorem Keyed.without {t : Table} {m : SortedMap t.Key t.Record} (h : Keyed t m)
    (evicted : t.Key → Bool) : Keyed t (without m evicted) := by
  intro k r hk
  rw [get?_without] at hk
  split_ifs at hk
  exact h k r hk

theorem Checked.without {t : Table} {m : SortedMap t.Key t.Record} (h : Checked E t m)
    (evicted : t.Key → Bool) : Checked E t (without m evicted) := by
  intro r hr
  obtain ⟨k, hk⟩ := SortedMap.mem_values.mp hr
  rw [get?_without] at hk
  split_ifs at hk
  exact h r (SortedMap.mem_values.mpr ⟨k, hk⟩)

end FrankenSnowflake.Cache
