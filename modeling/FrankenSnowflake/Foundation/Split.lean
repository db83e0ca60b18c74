import Mathlib.Data.List.Basic

/-!
# Splitting at a separator

What the parts of `List.splitOn` are, beside the lemmas of the standard library.
-/

namespace Foundation.Split

variable {α : Type*} [BEq α] [LawfulBEq α]

/-- No part holds the separator. -/
theorem notMem_of_mem_splitOn {a : α} {s part : List α} (h : part ∈ s.splitOn a) : a ∉ part := by
  induction s generalizing part with
  | nil =>
      rw [List.splitOn_nil, List.mem_singleton] at h
      rw [h]
      exact List.not_mem_nil
  | cons c s ih =>
      rw [List.splitOn_cons_eq_if_modifyHead] at h
      obtain ⟨first, rest, hparts⟩ := List.exists_cons_of_ne_nil (List.splitOn_ne_nil a s)
      rw [hparts] at h ih
      split_ifs at h with hc
      · rcases List.mem_cons.mp h with rfl | hpart
        · exact List.not_mem_nil
        · exact ih hpart
      · rw [List.modifyHead_cons] at h
        rcases List.mem_cons.mp h with rfl | hpart
        · rw [List.mem_cons, not_or]
          refine ⟨?_, ih List.mem_cons_self⟩
          rintro rfl
          exact hc BEq.rfl
        · exact ih (List.mem_cons_of_mem _ hpart)

/-- There is a part more than separators. -/
theorem length_splitOn (a : α) (s : List α) : (s.splitOn a).length = s.count a + 1 := by
  induction s with
  | nil => rfl
  | cons c s ih =>
      rw [List.splitOn_cons_eq_if_modifyHead, List.count_cons]
      split_ifs with hc
      · rw [List.length_cons, ih]
      · rw [List.length_modifyHead, ih]

end Foundation.Split
