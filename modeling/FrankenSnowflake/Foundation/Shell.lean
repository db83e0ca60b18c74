import Mathlib.Algebra.GroupWithZero.Nat
import Mathlib.Algebra.Order.Group.Nat
import Mathlib.Data.List.Basic

/-!
# Words of a shell command

How a POSIX shell splits a line into the words of one command.  Quotes and
backslashes are removed.  A line with an expansion, a redirection, a comment, an
operator or another command has no such words.
-/

namespace Foundation.Shell

abbrev Text : Type := List Char

/-! ## Splitting -/

/-- Between words, or in a word of which these characters were read: outside of
quotes, in single or double quotes, or behind a backslash. -/
inductive State where
  | between
  | word (cur : Text)
  | single (cur : Text)
  | double (cur : Text)
  | escape (cur : Option Text)
  | doubleEscape (cur : Text)
deriving DecidableEq, Repr

def IsBlank (c : Char) : Prop := c = ' ' ∨ c = '\t'

instance : DecidablePred IsBlank := fun _ ↦ inferInstanceAs (Decidable (_ ∨ _))

/-- Operators, the newline, and characters that are expanded. -/
def metacharacters : Text := "|&;<>()$`*?[\n".toList

/-- A character outside of quotes that is no blank and no backslash. -/
def enter (cur : Text) (c : Char) : Option State :=
  if c = '\'' then some (.single cur)
  else if c = '"' then some (.double cur)
  else if c ∈ metacharacters then none
  else some (.word (cur ++ [c]))

/-- The words that end with a character, and the state behind it; a `#` or `~` is
special in front of a word only. -/
def State.next : State → Char → Option (List Text × State)
  | between, c =>
      if IsBlank c then some ([], between)
      else if c = '\\' then some ([], escape none)
      else if c = '#' ∨ c = '~' then none
      else (enter [] c).map ([], ·)
  | word cur, c =>
      if IsBlank c then some ([cur], between)
      else if c = '\\' then some ([], escape (some cur))
      else (enter cur c).map ([], ·)
  | single cur, c => some ([], if c = '\'' then word cur else single (cur ++ [c]))
  | double cur, c =>
      if c = '"' then some ([], word cur)
      else if c = '\\' then some ([], doubleEscape cur)
      else if c = '$' ∨ c = '`' then none
      else some ([], double (cur ++ [c]))
  | escape cur, c =>
      -- a newline behind a backslash is removed with it
      some ([], if c = '\n' then cur.elim between word else word (cur.getD [] ++ [c]))
  | doubleEscape cur, c =>
      some ([], double (if c = '\n' then cur
        else if c = '$' ∨ c = '`' ∨ c = '"' ∨ c = '\\' then cur ++ [c]
        else cur ++ ['\\', c]))

/-- The word that ends with the line; a quote that is open has none. -/
def State.finish : State → Option (List Text)
  | between => some []
  | word cur => some [cur]
  | single _ | double _ | escape _ | doubleEscape _ => none

/-- The words that end within a text, and the state behind it. -/
def run : State → Text → Option (List Text × State)
  | σ, [] => some ([], σ)
  | σ, c :: s => do
      let (ws, σ) ← σ.next c
      let (ws', σ) ← run σ s
      return (ws ++ ws', σ)

def splitFrom (σ : State) (s : Text) : Option (List Text) := do
  let (ws, σ) ← run σ s
  return ws ++ (← σ.finish)

/-- The words of a line that is one plain command. -/
def split (s : Text) : Option (List Text) := splitFrom .between s

example : split "run --as-of '2026-09-04 12:34' \"a\\\"b\" c\\ d".toList =
    some ["run".toList, "--as-of".toList, "2026-09-04 12:34".toList, "a\"b".toList, "c d".toList] := by
  decide +kernel

example : split "run --limit 10; ls".toList = none := by decide +kernel

/-! ## Runs -/

theorem run_cons {σ : State} {c : Char} {s : Text} {ws : List Text} {σ' : State} :
    run σ (c :: s) = some (ws, σ') ↔
      ∃ ws₁ σ₁ ws₂, σ.next c = some (ws₁, σ₁) ∧ run σ₁ s = some (ws₂, σ') ∧ ws = ws₁ ++ ws₂ := by
  rw [run]
  simp only [Option.bind_eq_bind, Option.pure_def]
  constructor
  · intro h
    obtain ⟨⟨ws₁, σ₁⟩, hnext, h⟩ := Option.bind_eq_some_iff.mp h
    obtain ⟨⟨ws₂, σ₂⟩, hrun, h⟩ := Option.bind_eq_some_iff.mp h
    obtain ⟨rfl, rfl⟩ := Prod.mk.inj (Option.some.inj h)
    exact ⟨ws₁, σ₁, ws₂, hnext, hrun, rfl⟩
  · rintro ⟨ws₁, σ₁, ws₂, hnext, hrun, rfl⟩
    rw [hnext, Option.bind_some, hrun, Option.bind_some]

theorem splitFrom_eq_some {σ : State} {s : Text} {ws : List Text} :
    splitFrom σ s = some ws ↔
      ∃ ws₁ σ₁ ws₂, run σ s = some (ws₁, σ₁) ∧ σ₁.finish = some ws₂ ∧ ws = ws₁ ++ ws₂ := by
  rw [splitFrom]
  simp only [Option.bind_eq_bind, Option.pure_def]
  constructor
  · intro h
    obtain ⟨⟨ws₁, σ₁⟩, hrun, h⟩ := Option.bind_eq_some_iff.mp h
    obtain ⟨ws₂, hfinish, h⟩ := Option.bind_eq_some_iff.mp h
    exact ⟨ws₁, σ₁, ws₂, hrun, hfinish, (Option.some.inj h).symm⟩
  · rintro ⟨ws₁, σ₁, ws₂, hrun, hfinish, rfl⟩
    rw [hrun, Option.bind_some, hfinish, Option.bind_some]

theorem run_append {σ : State} {s t : Text} {ws : List Text} {σ' : State} :
    run σ (s ++ t) = some (ws, σ') ↔
      ∃ ws₁ σ₁ ws₂, run σ s = some (ws₁, σ₁) ∧ run σ₁ t = some (ws₂, σ') ∧ ws = ws₁ ++ ws₂ := by
  induction s generalizing σ ws with
  | nil =>
      constructor
      · intro h
        exact ⟨[], σ, ws, rfl, h, rfl⟩
      · rintro ⟨ws₁, σ₁, ws₂, hrun, h, rfl⟩
        cases hrun
        exact h
  | cons c s ih =>
      rw [List.cons_append, run_cons]
      simp only [ih, run_cons]
      constructor
      · rintro ⟨ws₁, σ₁, -, hnext, ⟨ws₂, σ₂, ws₃, hs, ht, rfl⟩, rfl⟩
        exact ⟨_, σ₂, ws₃, ⟨ws₁, σ₁, ws₂, hnext, hs, rfl⟩, ht, (List.append_assoc _ _ _).symm⟩
      · rintro ⟨-, σ₂, ws₃, ⟨ws₁, σ₁, ws₂, hnext, hs, rfl⟩, ht, rfl⟩
        exact ⟨ws₁, σ₁, ws₂ ++ ws₃, hnext, ⟨ws₂, σ₂, ws₃, hs, ht, rfl⟩, List.append_assoc _ _ _⟩

/-- A text is split in front of another one. -/
theorem splitFrom_append {σ : State} {s t : Text} {ws : List Text} :
    splitFrom σ (s ++ t) = some ws ↔
      ∃ ws₁ σ₁ ws₂, run σ s = some (ws₁, σ₁) ∧ splitFrom σ₁ t = some ws₂ ∧ ws = ws₁ ++ ws₂ := by
  simp only [splitFrom_eq_some, run_append]
  constructor
  · rintro ⟨-, σ₂, ws₃, ⟨ws₁, σ₁, ws₂, hs, ht, rfl⟩, hfinish, rfl⟩
    exact ⟨ws₁, σ₁, ws₂ ++ ws₃, hs, ⟨ws₂, σ₂, ws₃, ht, hfinish, rfl⟩, List.append_assoc _ _ _⟩
  · rintro ⟨ws₁, σ₁, -, hs, ⟨ws₂, σ₂, ws₃, ht, hfinish, rfl⟩, rfl⟩
    exact ⟨_, σ₂, ws₃, ⟨ws₁, σ₁, ws₂, hs, ht, rfl⟩, hfinish, (List.append_assoc _ _ _).symm⟩

theorem splitFrom_cons {σ : State} {c : Char} {s : Text} {ws : List Text} :
    splitFrom σ (c :: s) = some ws ↔
      ∃ ws₁ σ₁ ws₂, σ.next c = some (ws₁, σ₁) ∧ splitFrom σ₁ s = some ws₂ ∧ ws = ws₁ ++ ws₂ := by
  simp only [splitFrom_eq_some, run_cons]
  constructor
  · rintro ⟨-, σ₂, ws₃, ⟨ws₁, σ₁, ws₂, hnext, hrun, rfl⟩, hfinish, rfl⟩
    exact ⟨ws₁, σ₁, ws₂ ++ ws₃, hnext, ⟨ws₂, σ₂, ws₃, hrun, hfinish, rfl⟩, List.append_assoc _ _ _⟩
  · rintro ⟨ws₁, σ₁, -, hnext, ⟨ws₂, σ₂, ws₃, hrun, hfinish, rfl⟩, rfl⟩
    exact ⟨_, σ₂, ws₃, ⟨ws₁, σ₁, ws₂, hnext, hrun, rfl⟩, hfinish, (List.append_assoc _ _ _).symm⟩

/-! ## Plain characters -/

/-- A character that stands for itself wherever it stands within a word. -/
structure IsPlain (c : Char) : Prop where
  blank : ¬ IsBlank c
  quote : ¬ c = '\''
  doubleQuote : ¬ c = '"'
  backslash : ¬ c = '\\'
  ordinary : c ∉ metacharacters

instance : DecidablePred IsPlain := fun c ↦
  decidable_of_iff (¬ IsBlank c ∧ c ≠ '\'' ∧ c ≠ '"' ∧ c ≠ '\\' ∧ c ∉ metacharacters)
    ⟨fun ⟨hblank, hquote, hdouble, hbackslash, hmeta⟩ ↦ ⟨hblank, hquote, hdouble, hbackslash, hmeta⟩,
      fun h ↦ ⟨h.blank, h.quote, h.doubleQuote, h.backslash, h.ordinary⟩⟩

/-- A word that a shell takes as it stands. -/
structure IsWord (v : Text) : Prop where
  plain : ∀ c ∈ v, IsPlain c
  head : ∃ c s, v = c :: s ∧ c ≠ '#' ∧ c ≠ '~'

instance : DecidablePred IsWord
  | [] => isFalse fun h ↦ by
      obtain ⟨c, s, hv, -⟩ := h.head
      cases hv
  | c :: s => decidable_of_iff ((c :: s).all (decide <| IsPlain ·) ∧ c ≠ '#' ∧ c ≠ '~') <| by
      rw [List.all_eq_true]
      simp only [decide_eq_true_eq]
      constructor
      · rintro ⟨hplain, hhead⟩
        exact ⟨hplain, c, s, rfl, hhead⟩
      · rintro ⟨hplain, c', s', hv, hhead⟩
        cases hv
        exact ⟨hplain, hhead⟩

theorem next_word_plain {cur : Text} {c : Char} (h : IsPlain c) :
    (State.word cur).next c = some ([], .word (cur ++ [c])) := by
  rw [State.next, if_neg h.blank, if_neg h.backslash, enter, if_neg h.quote, if_neg h.doubleQuote,
    if_neg h.ordinary]
  rfl

theorem run_word_plain {s : Text} (h : ∀ c ∈ s, IsPlain c) (cur : Text) :
    run (.word cur) s = some ([], .word (cur ++ s)) := by
  induction s generalizing cur with
  | nil => rw [List.append_nil]; rfl
  | cons c s ih =>
      obtain ⟨hc, hs⟩ := List.forall_mem_cons.mp h
      refine run_cons.mpr ⟨[], _, [], next_word_plain hc, ?_, rfl⟩
      rw [ih hs, List.append_assoc]
      rfl

theorem run_between_word {v : Text} (h : IsWord v) : run .between v = some ([], .word v) := by
  obtain ⟨hplain, c, s, rfl, hhash, htilde⟩ := h
  obtain ⟨hc, hs⟩ := List.forall_mem_cons.mp hplain
  refine run_cons.mpr ⟨[], .word [c], [], ?_, run_word_plain hs [c], rfl⟩
  rw [State.next, if_neg hc.blank, if_neg hc.backslash, if_neg (not_or.mpr ⟨hhash, htilde⟩), enter,
    if_neg hc.quote, if_neg hc.doubleQuote, if_neg hc.ordinary]
  rfl

theorem run_single {s : Text} (h : '\'' ∉ s) (cur : Text) :
    run (.single cur) s = some ([], .single (cur ++ s)) := by
  induction s generalizing cur with
  | nil => rw [List.append_nil]; rfl
  | cons c s ih =>
      obtain ⟨hc, hs⟩ := not_or.mp (List.mem_cons.not.mp h)
      refine run_cons.mpr ⟨[], .single (cur ++ [c]), [], ?_, ?_, rfl⟩
      · rw [State.next, if_neg (Ne.symm hc)]
      · rw [ih hs, List.append_assoc]
        rfl

/-- A text in single quotes is a word. -/
theorem run_between_quoted {v : Text} (h : '\'' ∉ v) :
    run .between ('\'' :: (v ++ ['\''])) = some ([], .word v) := by
  refine run_cons.mpr ⟨[], .single [], [], rfl, ?_, rfl⟩
  exact run_append.mpr ⟨[], .single v, [], run_single h [], rfl, rfl⟩

/-! ## What a run keeps -/

namespace State

/-- The characters that were read of the word. -/
def text : State → Text
  | between => []
  | word cur | single cur | double cur | doubleEscape cur => cur
  | escape cur => cur.getD []

/-- The characters that the word has, or will have of what was read. -/
def size : State → Nat
  | doubleEscape cur => cur.length + 1
  | σ => σ.text.length

end State

theorem enter_cases {cur : Text} {c : Char} {σ : State} (h : enter cur c = some σ) :
    (c = '\'' ∧ σ = .single cur) ∨ (c = '"' ∧ σ = .double cur) ∨
      (c ≠ '\'' ∧ c ≠ '"' ∧ c ∉ metacharacters ∧ σ = .word (cur ++ [c])) := by
  unfold enter at h
  split_ifs at h with hquote hdouble hmeta
  · exact .inl ⟨hquote, (Option.some.inj h).symm⟩
  · exact .inr (.inl ⟨hdouble, (Option.some.inj h).symm⟩)
  · exact .inr (.inr ⟨hquote, hdouble, hmeta, (Option.some.inj h).symm⟩)

/-- The lengths of words, each with the blank that ends it. -/
def spelled (ws : List Text) : Nat := (ws.map fun w ↦ w.length + 1).sum

theorem spelled_append (ws ws' : List Text) : spelled (ws ++ ws') = spelled ws + spelled ws' := by
  simp [spelled]

/-- What a character does: it ends a word, or it is removed, or it is read, behind
a backslash that turns out to stand for itself. -/
theorem next_cases {σ σ' : State} {c : Char} {ws : List Text} (h : σ.next c = some (ws, σ')) :
    (∃ cur, σ = .word cur ∧ IsBlank c ∧ ws = [cur] ∧ σ' = .between) ∨
      ws = [] ∧ σ'.size ≤ σ.size + 1 ∧
        ((¬ IsPlain c ∧ σ'.text = σ.text) ∨ σ'.text = σ.text ++ [c] ∨
          σ'.text = σ.text ++ ['\\', c]) := by
  have hremoved : ∀ {cur : Text} {τ : State}, enter cur c = some τ →
      τ.size ≤ cur.length + 1 ∧ ((¬ IsPlain c ∧ τ.text = cur) ∨ τ.text = cur ++ [c]) := by
    intro cur τ hτ
    rcases enter_cases hτ with ⟨hc, rfl⟩ | ⟨hc, rfl⟩ | ⟨-, -, -, rfl⟩
    · exact ⟨Nat.le_succ _, .inl ⟨fun hplain ↦ hplain.quote hc, rfl⟩⟩
    · exact ⟨Nat.le_succ _, .inl ⟨fun hplain ↦ hplain.doubleQuote hc, rfl⟩⟩
    · exact ⟨(List.length_append).le, .inr rfl⟩
  cases σ with
  | between =>
      rw [State.next] at h
      split_ifs at h with hblank hbackslash
      · cases h
        exact .inr ⟨rfl, Nat.zero_le _, .inl ⟨fun hplain ↦ hplain.blank hblank, rfl⟩⟩
      · cases h
        exact .inr ⟨rfl, Nat.zero_le _, .inl ⟨fun hplain ↦ hplain.backslash hbackslash, rfl⟩⟩
      · obtain ⟨τ, hτ, heq⟩ := Option.map_eq_some_iff.mp h
        cases heq
        obtain ⟨hsize, htext⟩ := hremoved hτ
        exact .inr ⟨rfl, hsize, htext.imp_right .inl⟩
  | word cur =>
      rw [State.next] at h
      split_ifs at h with hblank hbackslash
      · cases h
        exact .inl ⟨cur, rfl, hblank, rfl, rfl⟩
      · cases h
        exact .inr ⟨rfl, Nat.le_succ _, .inl ⟨fun hplain ↦ hplain.backslash hbackslash, rfl⟩⟩
      · obtain ⟨τ, hτ, heq⟩ := Option.map_eq_some_iff.mp h
        cases heq
        obtain ⟨hsize, htext⟩ := hremoved hτ
        exact .inr ⟨rfl, hsize, htext.imp_right .inl⟩
  | single cur =>
      rw [State.next] at h
      split_ifs at h with hquote
      · cases h
        exact .inr ⟨rfl, Nat.le_succ _, .inl ⟨fun hplain ↦ hplain.quote hquote, rfl⟩⟩
      · cases h
        exact .inr ⟨rfl, (List.length_append).le, .inr (.inl rfl)⟩
  | double cur =>
      rw [State.next] at h
      split_ifs at h with hquote hbackslash
      · cases h
        exact .inr ⟨rfl, Nat.le_succ _, .inl ⟨fun hplain ↦ hplain.doubleQuote hquote, rfl⟩⟩
      · cases h
        exact .inr ⟨rfl, le_rfl, .inl ⟨fun hplain ↦ hplain.backslash hbackslash, rfl⟩⟩
      · cases h
        exact .inr ⟨rfl, (List.length_append).le, .inr (.inl rfl)⟩
  | escape cur =>
      rw [State.next] at h
      split_ifs at h with hnewline
      · cases h
        subst hnewline
        refine .inr ⟨rfl, ?_, .inl ⟨by decide, ?_⟩⟩
        · cases cur with
          | none => exact Nat.zero_le _
          | some cur => exact Nat.le_succ _
        · cases cur <;> rfl
      · cases h
        exact .inr ⟨rfl, (List.length_append).le, .inr (.inl rfl)⟩
  | doubleEscape cur =>
      rw [State.next] at h
      split_ifs at h with hnewline hescaped
      · cases h
        subst hnewline
        exact .inr ⟨rfl, (Nat.le_succ _).trans (Nat.le_succ _), .inl ⟨by decide, rfl⟩⟩
      · cases h
        refine .inr ⟨rfl, ?_, .inr (.inl rfl)⟩
        exact (List.length_append).le.trans (Nat.le_succ _)
      · cases h
        exact .inr ⟨rfl, (List.length_append).le, .inr (.inr rfl)⟩

/-- No character is read twice. -/
theorem size_next {σ σ' : State} {c : Char} {ws : List Text} (h : σ.next c = some (ws, σ')) :
    spelled ws + σ'.size ≤ σ.size + 1 := by
  rcases next_cases h with ⟨cur, rfl, -, rfl, rfl⟩ | ⟨rfl, hsize, -⟩
  · exact le_rfl
  · exact (Nat.zero_add _).le.trans hsize

/-- A plain character is never lost. -/
theorem count_next {d : Char} (hd : IsPlain d) {σ σ' : State} {c : Char} {ws : List Text}
    (h : σ.next c = some (ws, σ')) :
    ws.flatten.count d + σ'.text.count d = σ.text.count d + [c].count d := by
  rcases next_cases h with ⟨cur, rfl, hblank, rfl, rfl⟩ | ⟨rfl, -, ⟨hc, htext⟩ | htext | htext⟩
  · have hne : c ≠ d := fun hcd ↦ hd.blank (hcd ▸ hblank)
    rw [List.count_singleton, if_neg (by simpa using hne)]
    simp [State.text]
  · have hne : c ≠ d := fun hcd ↦ hc (hcd ▸ hd)
    rw [htext, List.count_singleton, if_neg (by simpa using hne)]
    simp
  · rw [htext, List.count_append]
    simp
  · have hne : '\\' ≠ d := fun hcd ↦ hd.backslash hcd.symm
    rw [htext, List.count_append, List.count_cons_of_ne hne]
    simp

theorem size_run {σ σ' : State} {s : Text} {ws : List Text} (h : run σ s = some (ws, σ')) :
    spelled ws + σ'.size ≤ σ.size + s.length := by
  induction s generalizing σ ws with
  | nil => cases h; exact (Nat.zero_add _).le
  | cons c s ih =>
      obtain ⟨ws₁, σ₁, ws₂, hnext, hrun, rfl⟩ := run_cons.mp h
      have hhead := size_next hnext
      have hrest := ih hrun
      rw [spelled_append, List.length_cons]
      omega

theorem count_run {d : Char} (hd : IsPlain d) {σ σ' : State} {s : Text} {ws : List Text}
    (h : run σ s = some (ws, σ')) :
    ws.flatten.count d + σ'.text.count d = σ.text.count d + s.count d := by
  induction s generalizing σ ws with
  | nil => cases h; simp
  | cons c s ih =>
      obtain ⟨ws₁, σ₁, ws₂, hnext, hrun, rfl⟩ := run_cons.mp h
      have hhead := count_next hd hnext
      have hrest := ih hrun
      rw [List.flatten_append, List.count_append, ← List.singleton_append, List.count_append]
      omega

/-! ## Words that are split off -/

/-- The first word has all that was read of it. -/
theorem count_text_le {d : Char} (hd : IsPlain d) {σ : State} {s w : Text} {ws : List Text}
    (h : splitFrom σ s = some (w :: ws)) : σ.text.count d ≤ w.count d := by
  induction s generalizing σ with
  | nil =>
      obtain ⟨ws₁, σ₁, ws₂, hrun, hfinish, hws⟩ := splitFrom_eq_some.mp h
      cases hrun
      cases σ with
      | word cur =>
          cases hfinish
          cases hws
          exact le_rfl
      | between =>
          cases hfinish
          cases hws
      | single | double | escape | doubleEscape => cases hfinish
  | cons c s ih =>
      obtain ⟨ws₁, σ₁, ws₂, hnext, hsplit, hws⟩ := splitFrom_cons.mp h
      rcases next_cases hnext with ⟨cur, rfl, -, rfl, rfl⟩ | ⟨rfl, -, -⟩
      · cases hws
        exact le_rfl
      · have hcount := count_next hd hnext
        rw [List.nil_append] at hws
        subst hws
        have hrest := ih hsplit
        simp only [List.flatten_nil, List.count_nil, Nat.zero_add] at hcount
        omega

/-- A text in front of a blank and a plain character spells a word that is as long
and has no more of these characters: then the word ends at the blank. -/
theorem run_of_splitFrom {d : Char} (hd : IsPlain d) {σ : State} {r v rest : Text} {ws : List Text}
    (h : splitFrom σ (r ++ ' ' :: d :: rest) = some (v :: ws)) (hsize : σ.size + r.length ≤ v.length)
    (hcount : v.count d ≤ σ.text.count d + r.count d) :
    run σ r = some ([], .word v) ∧ splitFrom .between (d :: rest) = some ws := by
  obtain ⟨ws₁, σ₁, ws₂, hrun, hsplit, hws⟩ := splitFrom_append.mp h
  have hlong := size_run hrun
  cases ws₁ with
  | cons w ws₁ =>
      cases hws
      have hspelled : spelled (v :: ws₁) = v.length + 1 + spelled ws₁ := by simp [spelled]
      omega
  | nil =>
      rw [List.nil_append] at hws
      subst hws
      obtain ⟨ws₃, σ₂, ws₄, hblank, hrest, hws⟩ := splitFrom_cons.mp hsplit
      rcases next_cases hblank with ⟨cur, rfl, -, rfl, rfl⟩ | ⟨rfl, -, -⟩
      · cases hws
        exact ⟨hrun, hrest⟩
      · rw [List.nil_append] at hws
        subst hws
        obtain ⟨ws₅, σ₃, ws₆, hplain, hend, hws⟩ := splitFrom_cons.mp hrest
        rcases next_cases hplain with ⟨-, -, hisblank, -, -⟩ | ⟨rfl, -, -⟩
        · exact absurd hisblank hd.blank
        · rw [List.nil_append] at hws
          subst hws
          -- the word goes on behind the blank, so it has one more `d`
          have hne : ' ' ≠ d := fun heq ↦ hd.blank (.inl heq.symm)
          have h₁ := count_run hd hrun
          have h₂ := count_next hd hblank
          have h₃ := count_next hd hplain
          have h₄ := count_text_le hd hend
          rw [List.count_singleton, if_neg (by simpa using hne)] at h₂
          rw [List.count_singleton_self] at h₃
          simp only [List.flatten_nil, List.count_nil, Nat.zero_add] at h₁ h₂ h₃
          omega

/-- In a word, a character is plain or makes it no longer. -/
theorem next_word_cases {cur : Text} {c : Char} {σ : State}
    (h : (State.word cur).next c = some ([], σ)) :
    (IsPlain c ∧ σ = .word (cur ++ [c])) ∨ σ.size = cur.length := by
  rw [State.next] at h
  split_ifs at h with hblank hbackslash
  · cases h
  · cases h
    exact .inr rfl
  · obtain ⟨τ, hτ, heq⟩ := Option.map_eq_some_iff.mp h
    cases heq
    rcases enter_cases hτ with ⟨-, rfl⟩ | ⟨-, rfl⟩ | ⟨hquote, hdouble, hordinary, rfl⟩
    · exact .inr rfl
    · exact .inr rfl
    · exact .inl ⟨⟨hblank, hquote, hdouble, hbackslash, hordinary⟩, rfl⟩

theorem plain_of_run {cur r : Text} {σ : State} (h : run (.word cur) r = some ([], σ))
    (hsize : σ.size = cur.length + r.length) : ∀ c ∈ r, IsPlain c := by
  induction r generalizing cur with
  | nil => exact nofun
  | cons c r ih =>
      obtain ⟨ws₁, σ₁, ws₂, hnext, hrun, hws⟩ := run_cons.mp h
      obtain ⟨rfl, rfl⟩ := List.append_eq_nil_iff.mp hws.symm
      rcases next_word_cases hnext with ⟨hc, rfl⟩ | hshort
      · refine List.forall_mem_cons.mpr ⟨hc, ih hrun ?_⟩
        rw [hsize, List.length_append, List.length_cons, List.length_singleton]
        omega
      · have hle := size_run hrun
        rw [List.length_cons] at hsize
        omega

theorem isWord_of_run {v : Text} (h : run .between v = some ([], .word v)) : IsWord v := by
  cases v with
  | nil => cases h
  | cons c s =>
      obtain ⟨ws₁, σ₁, ws₂, hnext, hrun, hws⟩ := run_cons.mp h
      obtain ⟨rfl, rfl⟩ := List.append_eq_nil_iff.mp hws.symm
      -- the first character has to be kept
      have hlong := size_run hrun
      have hsize : (State.word (c :: s)).size = s.length + 1 := rfl
      rw [State.next] at hnext
      split_ifs at hnext with hblank hbackslash hstart
      · cases hnext
        have hzero : State.between.size = 0 := rfl
        omega
      · cases hnext
        have hzero : (State.escape none).size = 0 := rfl
        omega
      · obtain ⟨τ, hτ, heq⟩ := Option.map_eq_some_iff.mp hnext
        cases heq
        rcases enter_cases hτ with ⟨-, rfl⟩ | ⟨-, rfl⟩ | ⟨hquote, hdouble, hordinary, rfl⟩
        · have hzero : (State.single []).size = 0 := rfl
          omega
        · have hzero : (State.double []).size = 0 := rfl
          omega
        · have hplain := plain_of_run hrun (by rw [hsize, Nat.add_comm]; rfl)
          exact ⟨List.forall_mem_cons.mpr
            ⟨⟨hblank, hquote, hdouble, hbackslash, hordinary⟩, hplain⟩, c, s, rfl, not_or.mp hstart⟩

/-- A word in front of a blank. -/
theorem splitFrom_word_blank {v rest : Text} {ws : List Text} (h : IsWord v) :
    splitFrom .between (v ++ ' ' :: rest) = some (v :: ws) ↔ splitFrom .between rest = some ws := by
  rw [splitFrom_append]
  constructor
  · rintro ⟨ws₁, σ₁, ws₂, hrun, hsplit, hws⟩
    cases (run_between_word h).symm.trans hrun
    obtain ⟨ws₃, σ₂, ws₄, hblank, hrest, rfl⟩ := splitFrom_cons.mp hsplit
    cases hblank
    cases hws
    exact hrest
  · intro hrest
    refine ⟨[], .word v, v :: ws, run_between_word h, ?_, rfl⟩
    exact splitFrom_cons.mpr ⟨[v], .between, ws, rfl, hrest, rfl⟩

/-- A text is a word as it stands iff it needs no quotes. -/
theorem splitFrom_word_iff {d : Char} (hd : IsPlain d) {v rest : Text} {ws : List Text} :
    splitFrom .between (v ++ ' ' :: d :: rest) = some (v :: ws) ↔
      IsWord v ∧ splitFrom .between (d :: rest) = some ws := by
  constructor
  · intro h
    obtain ⟨hrun, hrest⟩ := run_of_splitFrom hd h (Nat.zero_add _).le
      (Nat.zero_add _).ge
    exact ⟨isWord_of_run hrun, hrest⟩
  · rintro ⟨hword, hrest⟩
    refine splitFrom_append.mpr ⟨[], .word v, v :: ws, run_between_word hword, ?_, rfl⟩
    exact splitFrom_cons.mpr ⟨[v], .between, ws, rfl, hrest, rfl⟩

/-- A text in single quotes is a word iff it has none. -/
theorem splitFrom_quoted_iff {d : Char} (hd : IsPlain d) {v rest : Text} {ws : List Text} :
    splitFrom .between ('\'' :: (v ++ ['\'']) ++ ' ' :: d :: rest) = some (v :: ws) ↔
      '\'' ∉ v ∧ splitFrom .between (d :: rest) = some ws := by
  constructor
  · intro h
    have hquote : '\'' ∉ v := by
      intro hmem
      obtain ⟨p, q, rfl, hp⟩ := List.eq_append_cons_of_mem hmem
      have hsplit : '\'' :: (p ++ '\'' :: q ++ ['\'']) ++ ' ' :: d :: rest =
          '\'' :: (p ++ ['\'']) ++ (q ++ ['\''] ++ ' ' :: d :: rest) := by
        simp
      rw [hsplit] at h
      obtain ⟨ws₁, σ₁, ws₂, hfront, hback, hws⟩ := splitFrom_append.mp h
      cases (run_between_quoted hp).symm.trans hfront
      rw [List.nil_append] at hws
      subst hws
      have hne : '\'' ≠ d := fun heq ↦ hd.quote heq.symm
      obtain ⟨hrun, -⟩ := run_of_splitFrom hd hback
        (by simp [State.size, State.text])
        (by simp [State.text, List.count_cons_of_ne hne])
      have hplain := plain_of_run hrun (by simp [State.size, State.text])
      exact (hplain '\'' (by simp)).quote rfl
    obtain ⟨ws₁, σ₁, ws₂, hfront, hback, hws⟩ := splitFrom_append.mp h
    cases (run_between_quoted hquote).symm.trans hfront
    rw [List.nil_append] at hws
    subst hws
    obtain ⟨ws₁, σ₁, ws₂, hblank, hrest, hws⟩ := splitFrom_cons.mp hback
    cases hblank
    cases hws
    exact ⟨hquote, hrest⟩
  · rintro ⟨hquote, hrest⟩
    refine splitFrom_append.mpr ⟨[], .word v, v :: ws, run_between_quoted hquote, ?_, rfl⟩
    exact splitFrom_cons.mpr ⟨[v], .between, ws, rfl, hrest, rfl⟩

end Foundation.Shell
