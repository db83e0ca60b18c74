import Mathlib.Data.List.Induction
import Mathlib.Data.List.Sort

/-!
# Sorted maps

A map is the list of its entries, in strictly increasing order of the keys.  A
map is determined by what it has under each key, so maps are compared by
`get?`, and lists read off a map come in key order.
-/

namespace Foundation

/-- A map whose entries are listed in key order. -/
structure SortedMap (κ α : Type*) [LinearOrder κ] where
  entries : List (κ × α)
  sorted : entries.Pairwise (fun e f ↦ e.1 < f.1)

namespace SortedMap

variable {κ α : Type*} [LinearOrder κ]

instance [DecidableEq α] : DecidableEq (SortedMap κ α) := fun m m' ↦
  decidable_of_iff (m.entries = m'.entries)
    ⟨fun h ↦ by cases m; cases m'; congr, fun h ↦ h ▸ rfl⟩

/-- The map without entries. -/
def empty : SortedMap κ α := ⟨[], .nil⟩

/-- What the map has under a key. -/
def get? (m : SortedMap κ α) (k : κ) : Option α := (m.entries.find? (·.1 = k)).map Prod.snd

/-- The keys, in order. -/
def keys (m : SortedMap κ α) : List κ := m.entries.map Prod.fst

/-- The values, in key order. -/
def values (m : SortedMap κ α) : List α := m.entries.map Prod.snd

/-- Put an entry in its place, over an entry of the same key. -/
def insertEntry (k : κ) (a : α) : List (κ × α) → List (κ × α)
  | [] => [(k, a)]
  | e :: es =>
      if k < e.1 then (k, a) :: e :: es
      else if k = e.1 then (k, a) :: es
      else e :: insertEntry k a es

theorem mem_insertEntry {k : κ} {a : α} {es : List (κ × α)} {e : κ × α}
    (h : e ∈ insertEntry k a es) : e = (k, a) ∨ e ∈ es := by
  induction es with
  | nil => exact Or.inl (List.mem_singleton.mp h)
  | cons f es ih =>
      unfold insertEntry at h
      split_ifs at h with hlt heq
      · exact List.mem_cons.mp h
      · exact (List.mem_cons.mp h).imp id (List.mem_cons_of_mem _)
      · rcases List.mem_cons.mp h with rfl | h
        · exact Or.inr List.mem_cons_self
        · exact (ih h).imp id (List.mem_cons_of_mem _)

theorem pairwise_insertEntry (k : κ) (a : α) {es : List (κ × α)}
    (h : es.Pairwise (fun e f ↦ e.1 < f.1)) :
    (insertEntry k a es).Pairwise (fun e f ↦ e.1 < f.1) := by
  induction es with
  | nil => exact List.pairwise_singleton _ _
  | cons f es ih =>
      obtain ⟨hf, hes⟩ := List.pairwise_cons.mp h
      unfold insertEntry
      split_ifs with hlt heq
      · refine h.cons ?_
        rintro e he
        rcases List.mem_cons.mp he with rfl | he
        · exact hlt
        · exact hlt.trans (hf e he)
      · exact hes.cons fun e he ↦ heq ▸ hf e he
      · refine (ih hes).cons ?_
        intro e he
        rcases mem_insertEntry he with rfl | he
        · exact lt_of_le_of_ne (not_lt.mp hlt) (Ne.symm heq)
        · exact hf e he

/-- Insertion; the last value under a key stays. -/
def insert (m : SortedMap κ α) (k : κ) (a : α) : SortedMap κ α :=
  ⟨insertEntry k a m.entries, pairwise_insertEntry k a m.sorted⟩

/-- The entries that satisfy a condition. -/
def filter (m : SortedMap κ α) (p : κ → α → Bool) : SortedMap κ α :=
  ⟨m.entries.filter fun e ↦ p e.1 e.2, m.sorted.filter _⟩

/-- The map with the image of every value. -/
def mapValues {β : Type*} (m : SortedMap κ α) (f : α → β) : SortedMap κ β :=
  ⟨m.entries.map fun e ↦ (e.1, f e.2), List.pairwise_map.mpr m.sorted⟩

/-- Collect entries, one after the other. -/
def ofList (es : List (κ × α)) : SortedMap κ α := es.foldl (fun m e ↦ m.insert e.1 e.2) empty

/-! ## Lookup -/

@[simp] theorem get?_empty (k : κ) : (empty : SortedMap κ α).get? k = none := rfl

theorem mem_entries {m : SortedMap κ α} {k : κ} {a : α} :
    (k, a) ∈ m.entries ↔ m.get? k = some a := by
  obtain ⟨es, hes⟩ := m
  simp only [get?]
  induction es with
  | nil => simp
  | cons e es ih =>
      obtain ⟨he, hes⟩ := List.pairwise_cons.mp hes
      rw [List.mem_cons, List.find?_cons]
      by_cases hk : e.1 = k
      · obtain ⟨k', a'⟩ := e
        obtain rfl : k' = k := hk
        have hnot : (k', a) ∉ es := fun hmem ↦ lt_irrefl k' (he (k', a) hmem)
        simp [hnot, eq_comm]
      · have hne : (k, a) ≠ e := by
          rintro rfl
          exact hk rfl
        simp [hk, hne, ih hes]

theorem get?_insert (m : SortedMap κ α) (k k' : κ) (a : α) :
    (m.insert k a).get? k' = if k' = k then some a else m.get? k' := by
  obtain ⟨es, hes⟩ := m
  simp only [get?, insert]
  induction es with
  | nil =>
      by_cases hk : k' = k
      · simp [insertEntry, hk]
      · simp [insertEntry, hk, Ne.symm hk]
  | cons e es ih =>
      obtain ⟨-, hes⟩ := List.pairwise_cons.mp hes
      by_cases hk : k' = k
      · subst hk
        rw [if_pos rfl] at ih ⊢
        unfold insertEntry
        split_ifs with hlt heq
        · simp
        · simp
        · simpa [Ne.symm heq] using ih hes
      · rw [if_neg hk] at ih ⊢
        unfold insertEntry
        split_ifs with hlt heq
        · simp [Ne.symm hk]
        · simp [Ne.symm hk, ← heq]
        · by_cases he : e.1 = k'
          · simp [he]
          · simpa [he] using ih hes

theorem get?_filter (m : SortedMap κ α) (p : κ → α → Bool) (k : κ) :
    (m.filter p).get? k = (m.get? k).filter (p k) := by
  refine Option.ext fun a ↦ ?_
  rw [← mem_entries, Option.filter_eq_some_iff, ← mem_entries]
  simp [filter]

theorem get?_mapValues {β : Type*} (m : SortedMap κ α) (f : α → β) (k : κ) :
    (m.mapValues f).get? k = (m.get? k).map f := by
  refine Option.ext fun b ↦ ?_
  rw [← mem_entries, Option.map_eq_some_iff]
  simp [mapValues, mem_entries]

theorem values_mapValues {β : Type*} (m : SortedMap κ α) (f : α → β) :
    (m.mapValues f).values = m.values.map f := by
  rw [values, values, mapValues, List.map_map, List.map_map]
  rfl

theorem nodup_entries (m : SortedMap κ α) : m.entries.Nodup :=
  m.sorted.imp fun hlt heq ↦ absurd hlt (by simp [heq])

/-- A map is what it has under each key. -/
theorem ext {m m' : SortedMap κ α} (h : ∀ k, m.get? k = m'.get? k) : m = m' := by
  have hperm : m.entries.Perm m'.entries := by
    refine (List.perm_ext_iff_of_nodup (nodup_entries m) (nodup_entries m')).mpr ?_
    rintro ⟨k, a⟩
    rw [mem_entries, mem_entries, h]
  have heq : m.entries = m'.entries :=
    hperm.eq_of_pairwise (fun _ _ _ _ h h' ↦ absurd h (lt_asymm h')) m.sorted m'.sorted
  cases m
  cases m'
  congr

theorem mem_keys {m : SortedMap κ α} {k : κ} : k ∈ m.keys ↔ (m.get? k).isSome := by
  simp only [keys, List.mem_map, Prod.exists, mem_entries, exists_and_right, exists_eq_right,
    Option.isSome_iff_exists]

/-- Filtering by a key twice. -/
theorem filter_filter (m : SortedMap κ α) (p q : κ → Bool) :
    (m.filter fun k _ ↦ p k).filter (fun k _ ↦ q k) = m.filter fun k _ ↦ p k && q k := by
  refine ext fun k ↦ ?_
  simp only [get?_filter, Option.filter_filter]

/-- Insertion, up to the order of the values. -/
theorem perm_values_insert (m : SortedMap κ α) (k : κ) (a : α) :
    (m.insert k a).values.Perm ((m.filter fun k' _ ↦ !decide (k' = k)).values ++ [a]) := by
  have hentries : (m.insert k a).entries.Perm
      ((m.filter fun k' _ ↦ !decide (k' = k)).entries ++ [(k, a)]) := by
    have hnodup : ((m.filter fun k' _ ↦ !decide (k' = k)).entries ++ [(k, a)]).Nodup := by
      refine (nodup_entries _).append (List.nodup_singleton _) ?_
      simp [List.disjoint_singleton, mem_entries, get?_filter]
    refine (List.perm_ext_iff_of_nodup (nodup_entries _) hnodup).mpr ?_
    rintro ⟨k', a'⟩
    rw [List.mem_append, List.mem_singleton, mem_entries, mem_entries, get?_insert, get?_filter]
    by_cases hk : k' = k
    · subst hk
      simp [eq_comm]
    · simp [hk]
  have hvalues := hentries.map Prod.snd
  rwa [List.map_append] at hvalues

theorem filter_eq_self (m : SortedMap κ α) {p : κ → Bool}
    (h : ∀ k ∈ m.keys, p k = true) : (m.filter fun k _ ↦ p k) = m := by
  refine ext fun k ↦ ?_
  rw [get?_filter]
  cases hk : m.get? k with
  | none => rfl
  | some a =>
      rw [Option.filter_some, if_pos (h k (mem_keys.mpr (by rw [hk]; rfl)))]

theorem mem_values {m : SortedMap κ α} {a : α} : a ∈ m.values ↔ ∃ k, m.get? k = some a := by
  simp only [values, List.mem_map, Prod.exists, mem_entries, exists_eq_right]

theorem sorted_keys (m : SortedMap κ α) : m.keys.Pairwise (· < ·) :=
  List.pairwise_map.mpr m.sorted

/-! ## Collected maps -/

theorem ofList_append (es fs : List (κ × α)) :
    ofList (es ++ fs) = fs.foldl (fun m e ↦ m.insert e.1 e.2) (ofList es) :=
  List.foldl_append

/-- The last entry of a key counts. -/
theorem get?_ofList (es : List (κ × α)) (k : κ) :
    (ofList es).get? k = (es.reverse.find? (·.1 = k)).map Prod.snd := by
  induction es using List.reverseRecOn with
  | nil => rfl
  | append_singleton es e ih =>
      rw [ofList_append, List.foldl_cons, List.foldl_nil, get?_insert, ih, List.reverse_concat,
        List.find?_cons]
      by_cases hk : e.1 = k
      · simp [hk]
      · simp [hk, Ne.symm hk]

/-- Where no key is listed twice, every entry counts. -/
theorem get?_ofList_eq_some {es : List (κ × α)} (h : (es.map Prod.fst).Nodup) {k : κ} {a : α} :
    (ofList es).get? k = some a ↔ (k, a) ∈ es := by
  rw [get?_ofList, Option.map_eq_some_iff]
  constructor
  · rintro ⟨e, he, rfl⟩
    have hk : e.1 = k := by simpa using List.find?_some he
    have hmem := List.mem_of_find?_eq_some he
    rw [← hk]
    simpa using hmem
  · intro hmem
    have hsome : (es.reverse.find? (·.1 = k)).isSome :=
      List.find?_isSome.mpr ⟨(k, a), by simpa using hmem, by simp⟩
    obtain ⟨e, he⟩ := Option.isSome_iff_exists.mp hsome
    refine ⟨e, he, ?_⟩
    have hk : e.1 = k := by simpa using List.find?_some he
    have he' : e ∈ es := by simpa using List.mem_of_find?_eq_some he
    have heq := List.inj_on_of_nodup_map h he' hmem hk
    rw [heq]

end SortedMap

end Foundation
