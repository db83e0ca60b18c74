import Mathlib.Data.List.DropRight
import Mathlib.Data.List.Induction

/-!
# Lines of a text

A line ends with a newline, a carriage return in front of it belongs to the end
of the line.  The last line of a text may lack its newline.
-/

namespace Foundation

/-- A line without the carriage return of its end. -/
def chomp (line : List Char) : List Char :=
  if line.getLast? = some '\r' then line.dropLast else line

/-- The lines of a text of which `line` was read. -/
def linesFrom (line : List Char) : List Char → List (List Char)
  | [] => if line.isEmpty then [] else [line]
  | c :: s => if c = '\n' then chomp line :: linesFrom [] s else linesFrom (line ++ [c]) s

/-- The lines of a text: `str::lines`. -/
def lines (s : List Char) : List (List Char) := linesFrom [] s

/-- A text up to its last newline. -/
def completeLines (s : List Char) : List Char := s.rdropWhile (· ≠ '\n')

/-- Lines, each with its newline. -/
def unlines (ls : List (List Char)) : List Char := ls.flatMap (· ++ ['\n'])

@[simp] theorem unlines_nil : unlines [] = [] := rfl

@[simp] theorem unlines_cons (l : List Char) (ls : List (List Char)) :
    unlines (l :: ls) = l ++ '\n' :: unlines ls := by
  simp [unlines]

theorem unlines_append (ls ls' : List (List Char)) :
    unlines (ls ++ ls') = unlines ls ++ unlines ls' := List.flatMap_append

theorem linesFrom_append {line l s : List Char} (hl : '\n' ∉ l) :
    linesFrom line (l ++ s) = linesFrom (line ++ l) s := by
  induction l generalizing line with
  | nil => rw [List.nil_append, List.append_nil]
  | cons c l ih =>
      obtain ⟨hc, hl⟩ := not_or.mp (List.mem_cons.not.mp hl)
      rw [List.cons_append, linesFrom, if_neg (Ne.symm hc), ih hl, List.append_assoc]
      rfl

/-- The lines of complete lines. -/
theorem lines_unlines {ls : List (List Char)} (h : ∀ l ∈ ls, '\n' ∉ l) :
    lines (unlines ls) = ls.map chomp := by
  induction ls with
  | nil => rfl
  | cons l ls ih =>
      obtain ⟨hl, hls⟩ := List.forall_mem_cons.mp h
      rw [unlines_cons, lines, linesFrom_append hl, List.nil_append, linesFrom, if_pos rfl,
        List.map_cons]
      exact congrArg _ (ih hls)

theorem lines_unlines_of_chomp {ls : List (List Char)} (h : ∀ l ∈ ls, '\n' ∉ l)
    (hchomp : ∀ l ∈ ls, chomp l = l) : lines (unlines ls) = ls := by
  rw [lines_unlines h]
  exact (List.map_congr_left hchomp).trans (List.map_id ls)

theorem unlines_concat_getLast (ls : List (List Char)) (hne : ls ≠ []) :
    ∃ s, unlines ls = s ++ ['\n'] := by
  obtain ⟨ls, l, rfl⟩ := List.eq_nil_or_concat ls |>.resolve_left hne
  exact ⟨unlines ls ++ l, by simp [unlines_append]⟩

/-- What stands behind the last newline is cut off. -/
theorem completeLines_append {ls : List (List Char)} {torn : List Char} (h : '\n' ∉ torn) :
    completeLines (unlines ls ++ torn) = unlines ls := by
  have htorn : ∀ c ∈ torn.reverse, decide (c ≠ '\n') = true := by
    intro c hc
    rw [decide_eq_true_eq]
    rintro rfl
    exact h (List.mem_reverse.mp hc)
  rw [completeLines, List.rdropWhile, List.reverse_append, List.dropWhile_append_of_pos htorn]
  by_cases hls : ls = []
  · subst hls
    rfl
  · obtain ⟨s, hs⟩ := unlines_concat_getLast ls hls
    rw [hs, List.reverse_concat, List.dropWhile_cons_of_neg (by simp), List.reverse_cons,
      List.reverse_reverse]

theorem completeLines_unlines (ls : List (List Char)) : completeLines (unlines ls) = unlines ls := by
  have hnil : '\n' ∉ ([] : List Char) := List.not_mem_nil
  simpa only [List.append_nil] using completeLines_append hnil

end Foundation
