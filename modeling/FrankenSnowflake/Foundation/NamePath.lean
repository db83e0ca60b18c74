import Mathlib.Data.List.Basic

/-!
# Names joined by marks

A name is a first part and the labelled parts behind it, each after the mark of
its label.  Parts are written as they are and may contain marks: two names are
written alike only where a part of one of them runs on over a mark of the other.
-/

namespace Foundation.NamePath

variable {α L : Type*} {mark : L → List α} {x y : List α} {p q : List (L × List α)}

/-- The labelled parts, each after its mark. -/
def joined (mark : L → List α) : List (L × List α) → List α
  | [] => []
  | (l, x) :: p => mark l ++ (x ++ joined mark p)

@[simp] theorem joined_nil : joined mark [] = [] := rfl

@[simp] theorem joined_cons {l : L} :
    joined mark ((l, x) :: p) = mark l ++ (x ++ joined mark p) := rfl

/-- No mark begins another one, and none overlaps with another one. -/
structure Marks (mark : L → List α) : Prop where
  ne_nil : ∀ l, mark l ≠ []
  eq_of_isPrefix : ∀ {l l'}, mark l <+: mark l' → l = l'
  head_notMem_tail : ∀ {l l' c}, (mark l).head? = some c → c ∉ (mark l').tail

/-- The first name runs on over the second: where the names part, a part of the
first one is that of the second, the mark of the second's next part, and a text
that, with what follows, is written as the second's next part and what follows. -/
inductive RunsOn (mark : L → List α) :
    List α → List (L × List α) → List α → List (L × List α) → Prop where
  | here {l : L} {x v y : List α} {p q : List (L × List α)}
      (h : v ++ joined mark p = y ++ joined mark q) :
      RunsOn mark (x ++ (mark l ++ v)) p x ((l, y) :: q)
  | there {l : L} {x x' y' : List α} {p q : List (L × List α)}
      (h : RunsOn mark x' p y' q) :
      RunsOn mark x ((l, x') :: p) x ((l, y') :: q)

namespace RunsOn

/-- Such names are written alike. -/
theorem joined_eq (h : RunsOn mark x p y q) : x ++ joined mark p = y ++ joined mark q := by
  induction h with
  | here h => simp [h]
  | there _ ih => simp [ih]

/-- Such names are not the same. -/
theorem ne (hm : Marks mark) (h : RunsOn mark x p y q) : (x, p) ≠ (y, q) := by
  induction h with
  | @here l x v y p q h =>
      intro heq
      have hnil : mark l ++ v = [] := List.append_right_eq_self.mp (congrArg Prod.fst heq)
      exact hm.ne_nil l (List.append_eq_nil_iff.mp hnil).1
  | there _ ih =>
      intro heq
      exact ih (by simpa using heq)

/-- A part of the first name contains the mark that the second has behind its part
at that place; the labels up to there are the same. -/
theorem exists_mark (h : RunsOn mark x p y q) :
    ∃ i w l, (x :: p.map Prod.snd)[i]? = some w ∧ (q.map Prod.fst)[i]? = some l ∧
      (p.map Prod.fst).take i = (q.map Prod.fst).take i ∧ mark l <:+: w := by
  induction h with
  | @here l x v y p q h =>
      exact ⟨0, x ++ (mark l ++ v), l, rfl, rfl, rfl, x, v, by simp⟩
  | there _ ih =>
      obtain ⟨i, w, l, hw, hl, htake, hwithin⟩ := ih
      exact ⟨i + 1, w, l, by simpa using hw, by simpa using hl, by simpa using htake, hwithin⟩

end RunsOn

/-- The text of a mark, where the parts behind it begin differently. -/
theorem Marks.label_eq (hm : Marks mark) {l l' : L} {u v : List α}
    (h : mark l ++ u = mark l' ++ v) : l = l' ∧ u = v := by
  have hl : l = l' := by
    rcases List.prefix_or_prefix_of_prefix (List.prefix_append (mark l) u)
      (h ▸ List.prefix_append (mark l') v) with hpre | hpre
    · exact hm.eq_of_isPrefix hpre
    · exact (hm.eq_of_isPrefix hpre).symm
  subst hl
  exact ⟨rfl, List.append_cancel_left h⟩

/-- A text in front of a name, read as a name: it contains the first mark whole. -/
theorem Marks.mark_isPrefix (hm : Marks mark) {u : List α} (hu : u ≠ [])
    (h : u ++ joined mark p = joined mark q) :
    ∃ l v y q', u = mark l ++ v ∧ q = (l, y) :: q' ∧
      v ++ joined mark p = y ++ joined mark q' := by
  cases q with
  | nil => exact absurd (List.append_eq_nil_iff.mp h).1 hu
  | cons e q =>
      obtain ⟨l, y⟩ := e
      rw [joined_cons] at h
      rcases List.append_eq_append_iff.mp h with ⟨w, hmark, hp⟩ | ⟨v, rfl, hv⟩
      · cases p with
        | nil =>
            obtain ⟨rfl, hy⟩ := List.append_eq_nil_iff.mp hp.symm
            rw [List.append_nil] at hmark
            exact ⟨l, [], y, q, by rw [hmark, List.append_nil], rfl, by simpa using hy.symm⟩
        | cons e p =>
            -- what is left of the mark would begin with the next mark
            obtain ⟨l', x⟩ := e
            cases w with
            | nil =>
                rw [List.append_nil] at hmark
                refine ⟨l, [], y, q, by rw [hmark, List.append_nil], rfl, ?_⟩
                simpa using hp
            | cons c w =>
                exfalso
                rw [joined_cons] at hp
                obtain ⟨d, m, hd⟩ := List.exists_cons_of_ne_nil (hm.ne_nil l')
                have hc : d = c := by
                  rw [hd] at hp
                  exact (List.cons_eq_cons.mp hp).1
                have hnot : d ∉ (mark l).tail := hm.head_notMem_tail (by rw [hd, List.head?_cons])
                obtain ⟨b, u, rfl⟩ := List.exists_cons_of_ne_nil hu
                apply hnot
                rw [hmark, hc]
                simp
      · exact ⟨l, v, y, q, rfl, rfl, hv.symm⟩

theorem Marks.joined_eq_nil (hm : Marks mark) : joined mark p = [] ↔ p = [] := by
  cases p with
  | nil => simp
  | cons e p =>
      obtain ⟨l, x⟩ := e
      simp [hm.ne_nil l]

/-- Of two names written alike, the one with the longer first part runs on. -/
theorem Marks.eq_or_runsOn (hm : Marks mark)
    (h : x ++ joined mark p = y ++ joined mark q) :
    (x = y ∧ joined mark p = joined mark q) ∨ RunsOn mark x p y q ∨ RunsOn mark y q x p := by
  rcases List.append_eq_append_iff.mp h with ⟨u, rfl, hu⟩ | ⟨u, rfl, hu⟩
  · by_cases hnil : u = []
    · subst hnil
      exact Or.inl ⟨(List.append_nil x).symm, hu⟩
    · obtain ⟨l, v, z, p', rfl, rfl, hv⟩ := hm.mark_isPrefix hnil hu.symm
      exact Or.inr (Or.inr (.here hv))
  · by_cases hnil : u = []
    · subst hnil
      exact Or.inl ⟨List.append_nil y, hu.symm⟩
    · obtain ⟨l, v, z, q', rfl, rfl, hv⟩ := hm.mark_isPrefix hnil hu.symm
      exact Or.inr (Or.inl (.here hv))

/-- Two names are written alike if and only if they are the same or one of them
runs on over the other. -/
theorem Marks.joined_eq_iff (hm : Marks mark) :
    x ++ joined mark p = y ++ joined mark q ↔
      (x, p) = (y, q) ∨ RunsOn mark x p y q ∨ RunsOn mark y q x p := by
  constructor
  · intro h
    induction p generalizing x y q with
    | nil =>
        rcases hm.eq_or_runsOn h with ⟨rfl, hq⟩ | hrun
        · rw [hm.joined_eq_nil.mp hq.symm]
          exact Or.inl rfl
        · exact Or.inr hrun
    | cons e p ih =>
        rcases hm.eq_or_runsOn h with ⟨rfl, hq⟩ | hrun
        · obtain ⟨l, x'⟩ := e
          cases q with
          | nil => exact absurd (hm.joined_eq_nil.mp hq) (List.cons_ne_nil _ _)
          | cons e' q =>
              -- the next labels agree, so the names part behind them
              obtain ⟨l', y'⟩ := e'
              obtain ⟨rfl, hrest⟩ := hm.label_eq hq
              rcases ih hrest with heq | hrun | hrun
              · obtain ⟨rfl, rfl⟩ := Prod.mk.inj heq
                exact Or.inl rfl
              · exact Or.inr (Or.inl (.there hrun))
              · exact Or.inr (Or.inr (.there hrun))
        · exact Or.inr hrun
  · rintro (h | h | h)
    · rw [(Prod.mk.inj h).1, (Prod.mk.inj h).2]
    · exact h.joined_eq
    · exact h.joined_eq.symm

end Foundation.NamePath
