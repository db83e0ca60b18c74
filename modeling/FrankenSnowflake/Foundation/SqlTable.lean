import FrankenSnowflake.Foundation.SortedMap
import Mathlib.Data.Char
import Mathlib.Data.List.Lex
import Mathlib.Data.List.Sort
import Mathlib.Data.Sum.Order
import Mathlib.Order.WithBot

/-!
# SQL tables

Statements on one table with a primary key: insertion that replaces or ignores,
deletion, and selection with an order.  A table that holds the rows of the records
of a sorted map answers as the map.
-/

namespace Foundation.Sql

/-! ## Values -/

inductive Value where
  | null
  | integer (n : Int)
  | text (s : List Char)
deriving DecidableEq, Repr

/-- NULL is less than the integers, and these are less than the texts. -/
def Value.rank : Value → WithBot (Int ⊕ₗ List Char)
  | null => ⊥
  | integer n => ↑(toLex (Sum.inl n) : Int ⊕ₗ List Char)
  | text s => ↑(toLex (Sum.inr s) : Int ⊕ₗ List Char)

theorem Value.rank_injective : Function.Injective rank := by
  intro a b h
  cases a <;> cases b <;> simp_all [rank]

instance : LinearOrder Value := LinearOrder.lift' Value.rank Value.rank_injective

@[simp] theorem Value.integer_lt_integer {n n' : Int} : integer n < integer n' ↔ n < n' := by
  change rank _ < rank _ ↔ _
  simp [rank]

@[simp] theorem Value.text_lt_text {s s' : List Char} : text s < text s' ↔ s < s' := by
  change rank _ < rank _ ↔ _
  simp [rank]

/-! ## Rows and statements -/

/-- The values of a row, in the order of its columns. -/
abbrev Row := List Value

/-- A column of a row. -/
def Row.col (row : Row) (i : Nat) : Value := row.getD i .null

/-- A term of `ORDER BY`. -/
structure Term where
  column : Nat
  descending : Bool

/-- The order of rows. -/
def le : List Term → Row → Row → Bool
  | [], _, _ => true
  | t :: ts, a, b =>
      if a.col t.column = b.col t.column then le ts a b
      else if t.descending then b.col t.column < a.col t.column
      else a.col t.column < b.col t.column

/-- The primary key of a row. -/
def primaryKey (pk : List Nat) (row : Row) : List Value := pk.map row.col

/-- `INSERT OR REPLACE`. -/
def insertOrReplace (pk : List Nat) (row : Row) (rows : List Row) : List Row :=
  rows.filter (fun row' ↦ primaryKey pk row' ≠ primaryKey pk row) ++ [row]

/-- `INSERT OR IGNORE`. -/
def insertOrIgnore (pk : List Nat) (row : Row) (rows : List Row) : List Row :=
  if rows.any (fun row' ↦ primaryKey pk row' = primaryKey pk row) then rows else rows ++ [row]

/-- `DELETE ... WHERE`. -/
def delete (p : Row → Bool) (rows : List Row) : List Row := rows.filter fun row ↦ !p row

/-- `SELECT ... WHERE ... ORDER BY`, with all columns. -/
def select (p : Row → Bool) (order : List Term) (rows : List Row) : List Row :=
  (rows.filter p).mergeSort (le order)

/-! ## Orders -/

theorem le_total (ts : List Term) (a b : Row) : (le ts a b || le ts b a) = true := by
  induction ts with
  | nil => rfl
  | cons t ts ih =>
      unfold le
      by_cases heq : a.col t.column = b.col t.column
      · rw [if_pos heq, if_pos heq.symm]
        exact ih
      · rw [if_neg heq, if_neg (Ne.symm heq)]
        rcases lt_or_gt_of_ne heq with hlt | hlt <;> cases t.descending <;> simp [hlt]

theorem le_trans (ts : List Term) (a b c : Row) (hab : le ts a b = true) (hbc : le ts b c = true) :
    le ts a c = true := by
  induction ts with
  | nil => rfl
  | cons t ts ih =>
      unfold le at hab hbc ⊢
      by_cases heq : a.col t.column = b.col t.column
      · rw [if_pos heq] at hab
        rw [heq]
        split_ifs at hbc ⊢ with h
        · exact ih hab hbc
        · exact hbc
        · exact hbc
      · rw [if_neg heq] at hab
        by_cases heq' : b.col t.column = c.col t.column
        · rw [← heq', if_neg heq]
          exact hab
        · rw [if_neg heq'] at hbc
          cases hdesc : t.descending with
          | true =>
              simp only [hdesc, if_true, decide_eq_true_eq] at hab hbc
              have hlt := hbc.trans hab
              simp [hlt.ne', hlt]
          | false =>
              simp only [hdesc, Bool.false_eq_true, if_false, decide_eq_true_eq] at hab hbc
              have hlt := hab.trans hbc
              simp [hlt.ne, hlt]

/-- Rows that come before each other agree on the columns of the order. -/
theorem col_eq_of_le {ts : List Term} {a b : Row} (hab : le ts a b = true) (hba : le ts b a = true) :
    ∀ t ∈ ts, a.col t.column = b.col t.column := by
  induction ts with
  | nil => simp
  | cons t ts ih =>
      unfold le at hab hba
      by_cases heq : a.col t.column = b.col t.column
      · rw [if_pos heq] at hab
        rw [if_pos heq.symm] at hba
        exact List.forall_mem_cons.mpr ⟨heq, ih hab hba⟩
      · rw [if_neg heq] at hab
        rw [if_neg (Ne.symm heq)] at hba
        exfalso
        cases hdesc : t.descending with
        | true =>
            simp only [hdesc, if_true, decide_eq_true_eq] at hab hba
            exact lt_asymm hab hba
        | false =>
            simp only [hdesc, Bool.false_eq_true, if_false, decide_eq_true_eq] at hab hba
            exact lt_asymm hab hba

/-! ## Tables of records -/

/-- The rows are those of the records of a map, in any order. -/
def Represents {κ ρ : Type*} [LinearOrder κ] (row : ρ → Row) (m : SortedMap κ ρ) (rows : List Row) :
    Prop := rows.Perm (m.values.map row)

/-- The rows that are selected, in order, are those of the records that are. -/
theorem select_of_perm {ρ : Type*} {row : ρ → Row} {rs : List ρ} {rows : List Row}
    (h : rows.Perm (rs.map row)) {p : Row → Bool} {order : List Term}
    (horder : ∀ r ∈ rs, ∀ r' ∈ rs, p (row r) = true → p (row r') = true →
      (∀ t ∈ order, (row r).col t.column = (row r').col t.column) → r = r') :
    select p order rows =
      ((rs.filter fun r ↦ p (row r)).mergeSort fun r r' ↦ le order (row r) (row r')).map row := by
  have hperm : (select p order rows).Perm
      (((rs.filter fun r ↦ p (row r)).mergeSort fun r r' ↦ le order (row r) (row r')).map row) :=
    calc (select p order rows).Perm (rows.filter p) := List.mergeSort_perm _ _
      List.Perm _ ((rs.map row).filter p) := h.filter p
      List.Perm _ ((rs.filter fun r ↦ p (row r)).map row) := by rw [List.filter_map]; rfl
      List.Perm _ _ := ((List.mergeSort_perm _ _).map row).symm
  have hsame : ∀ a b, a ∈ select p order rows →
      b ∈ ((rs.filter fun r ↦ p (row r)).mergeSort fun r r' ↦ le order (row r) (row r')).map row →
        le order a b = true → le order b a = true → a = b := by
    intro a b ha hb hab hba
    have hb' := hperm.mem_iff.mpr hb
    have hmem : ∀ x ∈ select p order rows, ∃ r ∈ rs, p (row r) = true ∧ row r = x := by
      intro x hx
      have hx' := hperm.mem_iff.mp hx
      obtain ⟨r, hr, rfl⟩ := List.mem_map.mp hx'
      obtain ⟨hr, hp⟩ := List.mem_filter.mp (List.mem_mergeSort.mp hr)
      exact ⟨r, hr, hp, rfl⟩
    obtain ⟨r, hr, hp, rfl⟩ := hmem a ha
    obtain ⟨r', hr', hp', rfl⟩ := hmem b hb'
    rw [horder r hr r' hr' hp hp' (col_eq_of_le hab hba)]
  refine hperm.eq_of_pairwise hsame ?_ ?_
  · exact List.pairwise_mergeSort (le_trans order) (le_total order) _
  · rw [List.pairwise_map]
    exact List.pairwise_mergeSort (fun r r' r'' ↦ le_trans order (row r) (row r') (row r''))
      (fun r r' ↦ le_total order (row r) (row r')) _

section Represents

variable {κ ρ : Type*} [LinearOrder κ] {row : ρ → Row} {m : SortedMap κ ρ} {rows : List Row}

theorem represents_empty : Represents row (.empty : SortedMap κ ρ) [] := .nil

/-- Deletion by a key. -/
theorem Represents.delete (h : Represents row m rows) {p : Row → Bool} {q : κ → Bool}
    (hp : ∀ k r, m.get? k = some r → p (row r) = q k) :
    Represents row (m.filter fun k _ ↦ !q k) (delete p rows) := by
  unfold Represents Sql.delete
  refine (h.filter _).trans (.of_eq ?_)
  rw [List.filter_map, SortedMap.values, SortedMap.values, SortedMap.filter, List.filter_map,
    List.map_map, List.map_map]
  congr 1
  refine List.filter_congr fun e he ↦ ?_
  rw [Function.comp_apply, Function.comp_apply, hp e.1 e.2 (SortedMap.mem_entries.mp he)]

variable {key : ρ → κ} {pk : List Nat}
  (hpk : ∀ r r', primaryKey pk (row r) = primaryKey pk (row r') ↔ key r = key r')
  (hkey : ∀ k r, m.get? k = some r → key r = k)
include hpk hkey

theorem Represents.insertOrReplace (h : Represents row m rows) (r : ρ) :
    Represents row (m.insert (key r) r) (insertOrReplace pk (row r) rows) := by
  have hdelete : Represents row (m.filter fun k _ ↦ !decide (k = key r))
      (rows.filter fun row' ↦ primaryKey pk row' ≠ primaryKey pk (row r)) := by
    refine (List.Perm.of_eq (List.filter_congr fun row' _ ↦ ?_)).trans
      (h.delete (p := fun row' ↦ primaryKey pk row' = primaryKey pk (row r)) fun k r' hr' ↦ ?_)
    · exact decide_not
    · exact decide_eq_decide.mpr ((hpk r' r).trans (by rw [hkey k r' hr']))
  unfold Represents Sql.insertOrReplace
  refine (hdelete.append_right _).trans ?_
  rw [← List.map_singleton, ← List.map_append]
  exact (m.perm_values_insert (key r) r).symm.map row

theorem Represents.insertOrIgnore (h : Represents row m rows) (r : ρ) :
    Represents row (if (m.get? (key r)).isNone then m.insert (key r) r else m)
      (insertOrIgnore pk (row r) rows) := by
  have hany : rows.any (fun row' ↦ primaryKey pk row' = primaryKey pk (row r)) =
      (m.get? (key r)).isSome := by
    rw [Bool.eq_iff_iff, List.any_eq_true, Option.isSome_iff_exists]
    constructor
    · rintro ⟨row', hrow', heq⟩
      obtain ⟨r', hr', rfl⟩ := List.mem_map.mp (h.mem_iff.mp hrow')
      obtain ⟨k, hk⟩ := SortedMap.mem_values.mp hr'
      refine ⟨r', ?_⟩
      rw [← (hpk r' r).mp (of_decide_eq_true heq), hkey k r' hk, hk]
    · rintro ⟨r', hr'⟩
      refine ⟨row r', h.mem_iff.mpr (List.mem_map_of_mem (SortedMap.mem_values.mpr ⟨_, hr'⟩)), ?_⟩
      exact decide_eq_true ((hpk r' r).mpr (hkey _ _ hr'))
  unfold Sql.insertOrIgnore
  rw [hany]
  cases hget : m.get? (key r) with
  | some r' => exact h
  | none =>
      have hself : (m.filter fun k _ ↦ !decide (k = key r)) = m := by
        refine m.filter_eq_self fun k hk ↦ ?_
        have hne : k ≠ key r := by
          rintro rfl
          rw [SortedMap.mem_keys, hget] at hk
          cases hk
        simp [hne]
      have hinsert := m.perm_values_insert (key r) r
      rw [hself] at hinsert
      change (rows ++ [row r]).Perm _
      refine (h.append_right _).trans ?_
      rw [← List.map_singleton, ← List.map_append]
      exact hinsert.symm.map row

end Represents

end Foundation.Sql
