import FrankenSnowflake.Core.SqlLexerLocal

/-!
# Lexing apart at a parenthesis

A text in front of a parenthesis is lexed as it would be alone, unless it ends in a
line comment or inside a token that is never closed; then its last token takes the
parenthesis too.
-/

namespace FrankenSnowflake.SqlLexer

/-! ## In front of a parenthesis -/

/-- A parenthesis comes next. -/
def Breaks (tail : List Char) : Prop := tail.head? = some '(' ∨ tail.head? = some ')'

theorem Breaks.head {tail : List Char} (h : Breaks tail) {p : Char → Bool} (hopen : p '(' = false)
    (hclose : p ')' = false) : ∀ c ∈ tail.head?, p c = false := by
  intro c hc
  rcases h with h | h
  · rw [h] at hc
    obtain rfl := Option.some.inj hc
    exact hopen
  · rw [h] at hc
    obtain rfl := Option.some.inj hc
    exact hclose

theorem Breaks.head_ne {tail : List Char} (h : Breaks tail) {c : Char} (hopen : c ≠ '(')
    (hclose : c ≠ ')') : tail.head? ≠ some c := by
  intro heq
  rcases h with h | h
  · exact hopen (Option.some.inj (heq.symm.trans h))
  · exact hclose (Option.some.inj (heq.symm.trans h))

theorem Breaks.ne_nil {tail : List Char} (h : Breaks tail) : tail ≠ [] := by
  rintro rfl
  rcases h with h | h <;> cases h

/-- A parenthesis comes next, or a quote behind anything but a string. -/
def Parts (kind : SqlTokenKind) (tail : List Char) : Prop :=
  Breaks tail ∨ (tail.head? = some '\'' ∧ kind ≠ .stringLiteral)

theorem Parts.head {kind : SqlTokenKind} {tail : List Char} (h : Parts kind tail) {p : Char → Bool}
    (hopen : p '(' = false) (hclose : p ')' = false) (hquote : p '\'' = false) :
    ∀ c ∈ tail.head?, p c = false := by
  rcases h with h | ⟨h, -⟩
  · exact h.head hopen hclose
  · intro c hc
    rw [h] at hc
    obtain rfl := Option.some.inj hc
    exact hquote

theorem Parts.head_ne {kind : SqlTokenKind} {tail : List Char} (h : Parts kind tail) {c : Char}
    (hopen : c ≠ '(') (hclose : c ≠ ')') (hquote : c = '\'' → kind = .stringLiteral) :
    tail.head? ≠ some c := by
  rcases h with h | ⟨h, hkind⟩
  · exact h.head_ne hopen hclose
  · rw [h]
    exact fun heq ↦ hkind (hquote (Option.some.inj heq).symm)

theorem head?_append_ne {s tail : List Char} {c : Char} (hs : s.head? ≠ some c)
    (htail : tail.head? ≠ some c) : (s ++ tail).head? ≠ some c := by
  cases s with
  | nil => exact htail
  | cons d s => exact hs

section Runs

variable {p : Char → Bool} {tail : List Char}

theorem takeWhile_append_break (s : List Char) (htail : ∀ c ∈ tail.head?, p c = false) :
    (s ++ tail).takeWhile p = s.takeWhile p := by
  induction s with
  | nil => exact takeWhile_append_of_head (t := []) (by simp) htail
  | cons c s ih => simp only [List.cons_append, List.takeWhile_cons, ih]

theorem dropWhile_append_break (s : List Char) (htail : ∀ c ∈ tail.head?, p c = false) :
    (s ++ tail).dropWhile p = s.dropWhile p ++ tail := by
  induction s with
  | nil => exact dropWhile_append_of_head (t := []) (by simp) htail
  | cons c s ih =>
      simp only [List.cons_append, List.dropWhile_cons, ih]
      split_ifs <;> rfl

/-- A run that ends before the end of a text ends there whatever follows. -/
theorem takeWhile_append_inside {s : List Char} (tail : List Char) (h : s.dropWhile p ≠ []) :
    (s ++ tail).takeWhile p = s.takeWhile p ∧ (s ++ tail).dropWhile p = s.dropWhile p ++ tail := by
  induction s with
  | nil => exact absurd rfl h
  | cons c s ih =>
      simp only [List.cons_append, List.takeWhile_cons, List.dropWhile_cons] at h ⊢
      split_ifs at h ⊢
      · obtain ⟨htake, hdrop⟩ := ih h
        exact ⟨congrArg _ htake, hdrop⟩
      · exact ⟨rfl, rfl⟩

theorem runOf_append_break (kind : SqlTokenKind) (s : List Char)
    (htail : ∀ c ∈ tail.head?, p c = false) :
    runOf kind p (s ++ tail) = { runOf kind p s with rest := (runOf kind p s).rest ++ tail } := by
  simp only [runOf, takeWhile_append_break s htail, dropWhile_append_break s htail]

end Runs

/-! ## Bodies -/

theorem head?_rest_stringBody {s : List Char} (h : (stringBody s).closed) :
    (stringBody s).rest.head? ≠ some '\'' := by
  fun_induction stringBody s with
  | case1 => cases h
  | case2 => cases h
  | case3 c rest ih => exact ih h
  | case4 rest ih => exact ih h
  | case5 rest hne => exact fun heq ↦ hne rest.tail (eq_cons_of_head? heq)
  | case6 c rest _ _ _ _ ih => exact ih h

theorem head?_rest_identifierBody {s : List Char} (h : (identifierBody s).closed) :
    (identifierBody s).rest.head? ≠ some '"' := by
  fun_induction identifierBody s with
  | case1 => cases h
  | case2 rest ih => exact ih h
  | case3 rest hne => exact fun heq ↦ hne rest.tail (eq_cons_of_head? heq)
  | case4 c rest _ _ ih => exact ih h

section Bodies

variable {s tail : List Char}

theorem stringBody_append_closed (h : (stringBody s).closed) (htail : tail.head? ≠ some '\'') :
    stringBody (s ++ tail) = ⟨(stringBody s).text, (stringBody s).rest ++ tail, true⟩ := by
  have hbody := stringBody_closed h (head?_append_ne (head?_rest_stringBody h) htail)
  rwa [← List.append_assoc, stringBody_append] at hbody

theorem identifierBody_append_closed (h : (identifierBody s).closed)
    (htail : tail.head? ≠ some '"') :
    identifierBody (s ++ tail) = ⟨(identifierBody s).text, (identifierBody s).rest ++ tail, true⟩ := by
  have hbody := identifierBody_closed h (head?_append_ne (head?_rest_identifierBody h) htail)
  rwa [← List.append_assoc, identifierBody_append] at hbody

theorem dollarBody_append_closed (h : (dollarBody s).closed) :
    dollarBody (s ++ tail) = ⟨(dollarBody s).text, (dollarBody s).rest ++ tail, true⟩ := by
  have hbody := @dollarBody_closed s ((dollarBody s).rest ++ tail) h
  rwa [← List.append_assoc, dollarBody_append] at hbody

theorem blockBody_append_closed (h : (blockBody s).closed) :
    blockBody (s ++ tail) = ⟨(blockBody s).text, (blockBody s).rest ++ tail, true⟩ ∧
      blockNested (s ++ tail) = blockNested s := by
  have hbody := @blockBody_closed s ((blockBody s).rest ++ tail) h
  have hnested := @blockNested_closed s ((blockBody s).rest ++ tail) h
  rw [← List.append_assoc, blockBody_append] at hbody hnested
  exact ⟨hbody, hnested⟩

end Bodies

/-- A token that is closed before a parenthesis or a quote is lexed alike. -/
theorem Arm.append_parts {c : Char} {rest tail : List Char} {s : Scanned} (h : Arm c rest s)
    (hclosed : s.unterminated = false) (hline : s.rest = [] → ¬ StartsLine c rest)
    (htail : Parts s.kind tail) : Arm c (rest ++ tail) { s with rest := s.rest ++ tail } := by
  have hrest {d : Char} (hopen : d ≠ '(') (hclose : d ≠ ')') (hquote : d ≠ '\'')
      (hd : rest.head? ≠ some d) : (rest ++ tail).head? ≠ some d :=
    head?_append_ne hd (htail.head_ne hopen hclose fun heq ↦ absurd heq hquote)
  have hcons {d : Char} (hd : rest.head? = some d) : (rest ++ tail).head? = some d := by
    rw [eq_cons_of_head? hd]
    rfl
  have htl {d : Char} (hd : rest.head? = some d) : (rest ++ tail).tail = rest.tail ++ tail := by
    rw [eq_cons_of_head? hd]
    rfl
  cases h with
  | whitespace h =>
      have harm : Arm c (rest ++ tail) _ := .whitespace h
      rwa [← List.cons_append, runOf_append_break _ _ (htail.head (by decide) (by decide) (by decide))] at harm
  | line h =>
      have hstarts : StartsLine c (rest ++ tail) := by
        rcases h with ⟨hc, hd⟩ | ⟨hc, hd⟩
        · exact Or.inl ⟨hc, hcons hd⟩
        · exact Or.inr ⟨hc, hcons hd⟩
      have hinside : (c :: rest).dropWhile (· ≠ '\n') ≠ [] := fun heq ↦ hline heq h
      obtain ⟨htake, hdrop⟩ := takeWhile_append_inside tail hinside
      have harm : Arm c (rest ++ tail) _ := .line hstarts
      rwa [← List.cons_append, lineEnd, htake, hdrop] at harm
  | block hc h =>
      have hb : (blockBody rest.tail).closed := by simpa using hclosed
      have harm : Arm c (rest ++ tail) _ := .block hc (hcons h)
      rw [htl h, (blockBody_append_closed hb).1, (blockBody_append_closed hb).2] at harm
      simpa [hb] using harm
  | string hc =>
      have hb : (stringBody rest).closed := by simpa using hclosed
      have harm : Arm c (rest ++ tail) _ := .string hc
      rw [stringBody_append_closed hb (htail.head_ne (by decide) (by decide) fun _ ↦ rfl)] at harm
      simpa [hb] using harm
  | identifier hc =>
      have hb : (identifierBody rest).closed := by simpa using hclosed
      have harm : Arm c (rest ++ tail) _ := .identifier hc
      rw [identifierBody_append_closed hb (htail.head_ne (by decide) (by decide) nofun)] at harm
      simpa [hb] using harm
  | dollar hc h =>
      have hb : (dollarBody rest.tail).closed := by simpa using hclosed
      have harm : Arm c (rest ++ tail) _ := .dollar hc (hcons h)
      rw [htl h, dollarBody_append_closed hb] at harm
      simpa [hb] using harm
  | var hc h =>
      have hhead := htail.head (p := isIdentifierByte) (by decide) (by decide) (by decide)
      obtain ⟨d, rest', rfl⟩ : ∃ d rest', rest = d :: rest' := by
        cases rest with
        | nil => cases h
        | cons d rest' => exact ⟨d, rest', rfl⟩
      have harm : Arm c (d :: rest' ++ tail) _ := .var hc h
      rwa [takeWhile_append_break _ hhead, dropWhile_append_break _ hhead] at harm
  | semicolon hc => exact .semicolon hc
  | word h =>
      have harm : Arm c (rest ++ tail) _ := .word h
      rwa [← List.cons_append, runOf_append_break _ _ (htail.head (by decide) (by decide) (by decide))] at harm
  | number h =>
      have harm : Arm c (rest ++ tail) _ := .number h
      rwa [← List.cons_append, runOf_append_break _ _ (htail.head (by decide) (by decide) (by decide))] at harm
  | symbol h =>
      refine .symbol { h with line := ?_, block := ?_, dollar := ?_, var := ?_ }
      · rintro (⟨hc, hd⟩ | ⟨hc, hd⟩)
        · exact hrest (by decide) (by decide) (by decide) (fun heq ↦ h.line (Or.inl ⟨hc, heq⟩)) hd
        · exact hrest (by decide) (by decide) (by decide) (fun heq ↦ h.line (Or.inr ⟨hc, heq⟩)) hd
      · exact fun ⟨hc, hd⟩ ↦ hrest (by decide) (by decide) (by decide) (fun heq ↦ h.block ⟨hc, heq⟩) hd
      · exact fun ⟨hc, hd⟩ ↦ hrest (by decide) (by decide) (by decide) (fun heq ↦ h.dollar ⟨hc, heq⟩) hd
      · rintro ⟨hc, hd⟩
        cases rest with
        | nil =>
            have hhead := htail.head (p := fun n ↦ n.isAlphanum || n = '_') (by decide) (by decide)
              (by decide)
            obtain ⟨n, hn, hword⟩ := (Option.any_eq_true _ _).mp hd
            rw [hhead n hn] at hword
            cases hword
        | cons d rest => exact h.var ⟨hc, hd⟩

/-! ## Beyond the end -/

section Beyond

variable {s tail : List Char}

theorem rest_of_not_closed {s : List Char} :
    ((stringBody s).closed = false → (stringBody s).rest = []) ∧
      ((identifierBody s).closed = false → (identifierBody s).rest = []) ∧
      ((dollarBody s).closed = false → (dollarBody s).rest = []) ∧
      ((blockBody s).closed = false → (blockBody s).rest = []) := by
  refine ⟨?_, ?_, ?_, ?_⟩
  · fun_induction stringBody s <;> simp_all [Body.push]
  · fun_induction identifierBody s <;> simp_all [Body.push]
  · fun_induction dollarBody s <;> simp_all [Body.push]
  · fun_induction blockBody s <;> simp_all [Body.push]

theorem length_stringBody_append (h : (stringBody s).closed = false) (htail : Breaks tail) :
    s.length < (stringBody (s ++ tail)).text.length := by
  obtain ⟨c, tail', rfl⟩ := List.exists_cons_of_ne_nil htail.ne_nil
  have hescape : c ≠ '\\' := fun heq ↦ htail.head_ne (c := '\\') (by decide) (by decide) (by rw [heq]; rfl)
  have hquote : c ≠ '\'' := fun heq ↦ htail.head_ne (c := '\'') (by decide) (by decide) (by rw [heq]; rfl)
  fun_induction stringBody s with
  | case1 => simp [stringBody_cons hescape hquote, Body.push]
  | case2 => simp [stringBody, Body.push]
  | case3 d rest ih => simpa [stringBody, Body.push] using ih h
  | case4 rest ih => simpa [stringBody, Body.push] using ih h
  | case5 rest hne => cases h
  | case6 d rest h₁ h₂ h₃ h₄ ih =>
      have hd : d ≠ '\\' := by
        rintro rfl
        cases rest with
        | nil => exact h₁ rfl rfl
        | cons e rest => exact h₂ _ _ rfl rfl
      simpa [stringBody_cons hd h₄, Body.push] using ih h

theorem length_identifierBody_append (h : (identifierBody s).closed = false)
    (htail : Breaks tail) : s.length < (identifierBody (s ++ tail)).text.length := by
  obtain ⟨c, tail', rfl⟩ := List.exists_cons_of_ne_nil htail.ne_nil
  have hquote : c ≠ '"' := fun heq ↦ htail.head_ne (c := '"') (by decide) (by decide) (by rw [heq]; rfl)
  fun_induction identifierBody s with
  | case1 => simp [identifierBody_cons hquote, Body.push]
  | case2 rest ih => simpa [identifierBody, Body.push] using ih h
  | case3 rest hne => cases h
  | case4 d rest h₁ h₂ ih => simpa [identifierBody_cons h₂, Body.push] using ih h

theorem length_dollarBody_append (h : (dollarBody s).closed = false) (htail : Breaks tail) :
    s.length < (dollarBody (s ++ tail)).text.length := by
  obtain ⟨c, tail', rfl⟩ := List.exists_cons_of_ne_nil htail.ne_nil
  have hc : c ≠ '$' := fun heq ↦ htail.head_ne (c := '$') (by decide) (by decide) (by rw [heq]; rfl)
  have hcons {d : Char} {rest : List Char} (hd : ∀ rest', d = '$' → rest = '$' :: rest' → False) :
      dollarBody (d :: rest) = (dollarBody rest).push [d] := by
    rw [dollarBody]
    exact hd
  fun_induction dollarBody s with
  | case1 => simp [hcons fun _ heq _ ↦ hc heq, Body.push]
  | case2 rest => cases h
  | case3 d rest hne ih =>
      have hnot : ∀ rest', d = '$' → rest ++ c :: tail' = '$' :: rest' → False := by
        intro rest' hd heq
        cases rest with
        | nil => exact hc (List.cons.inj heq).1
        | cons e rest => exact hne rest hd (by rw [(List.cons.inj heq).1])
      simpa [hcons hnot, Body.push] using ih h

theorem length_blockBody_append (h : (blockBody s).closed = false) (htail : Breaks tail) :
    s.length < (blockBody (s ++ tail)).text.length := by
  obtain ⟨c, tail', rfl⟩ := List.exists_cons_of_ne_nil htail.ne_nil
  have hstar : c ≠ '*' := fun heq ↦ htail.head_ne (c := '*') (by decide) (by decide) (by rw [heq]; rfl)
  have hc : c ≠ '/' := fun heq ↦ htail.head_ne (c := '/') (by decide) (by decide) (by rw [heq]; rfl)
  have hcons {d : Char} {rest : List Char} (hd : ∀ rest', d = '*' → rest = '/' :: rest' → False) :
      blockBody (d :: rest) = (blockBody rest).push [d] := by
    rw [blockBody]
    exact hd
  fun_induction blockBody s with
  | case1 => simp [hcons fun _ heq _ ↦ hstar heq, Body.push]
  | case2 rest => cases h
  | case3 d rest hne ih =>
      have hnot : ∀ rest', d = '*' → rest ++ c :: tail' = '/' :: rest' → False := by
        intro rest' hd heq
        cases rest with
        | nil => exact hc (List.cons.inj heq).1
        | cons e rest => exact hne rest hd (by rw [(List.cons.inj heq).1])
      simpa [hcons hnot, Body.push] using ih h

end Beyond

/-- Only a token that is not closed, or a line comment, takes a parenthesis that follows. -/
theorem Arm.length_lt {c : Char} {rest tail : List Char} {s : Scanned} (h : Arm c rest s)
    (hopen : s.unterminated = true ∨ (s.rest = [] ∧ StartsLine c rest)) (htail : Breaks tail) :
    (c :: rest).length < (scanToken c (rest ++ tail)).text.length := by
  have hcons {d : Char} (hd : rest.head? = some d) : (rest ++ tail).head? = some d := by
    rw [eq_cons_of_head? hd]
    rfl
  have hlength {d : Char} (hd : rest.head? = some d) : rest.length = rest.tail.length + 1 := by
    rw [eq_cons_of_head? hd]
    rfl
  have htl {d : Char} (hd : rest.head? = some d) : (rest ++ tail).tail = rest.tail ++ tail := by
    rw [eq_cons_of_head? hd]
    rfl
  by_cases hline : StartsLine c rest
  · have hstarts : StartsLine c (rest ++ tail) := by
      rcases hline with ⟨hc, hd⟩ | ⟨hc, hd⟩
      · exact Or.inl ⟨hc, hcons hd⟩
      · exact Or.inr ⟨hc, hcons hd⟩
    have hs := scanToken_eq (.line hline : Arm c rest _)
    rw [scanToken_eq h] at hs
    subst hs
    have hall : ∀ d ∈ c :: rest, (fun e : Char ↦ decide (e ≠ '\n')) d := by
      rcases hopen with hopen | ⟨hrest, -⟩
      · cases hopen
      · exact List.dropWhile_eq_nil_iff.mp hrest
    rw [scanToken_eq (.line hstarts), lineEnd, ← List.cons_append,
      List.takeWhile_append_of_pos hall, List.length_append]
    obtain ⟨d, tail', rfl⟩ := List.exists_cons_of_ne_nil htail.ne_nil
    have hd : d ≠ '\n' := fun heq ↦ htail.head_ne (c := '\n') (by decide) (by decide) (by rw [heq]; rfl)
    simp [hd]
  · have hopen : s.unterminated = true := hopen.resolve_right fun h ↦ hline h.2
    cases h with
    | block hc h =>
        have hb : (blockBody rest.tail).closed = false := by simpa using hopen
        rw [scanToken_eq (.block hc (hcons h)), htl h, List.length_cons, hlength h]
        exact Nat.succ_lt_succ (Nat.succ_lt_succ (length_blockBody_append hb htail))
    | string hc =>
        have hb : (stringBody rest).closed = false := by simpa using hopen
        rw [scanToken_eq (.string hc)]
        exact Nat.succ_lt_succ (length_stringBody_append hb htail)
    | identifier hc =>
        have hb : (identifierBody rest).closed = false := by simpa using hopen
        rw [scanToken_eq (.identifier hc)]
        exact Nat.succ_lt_succ (length_identifierBody_append hb htail)
    | dollar hc h =>
        have hb : (dollarBody rest.tail).closed = false := by simpa using hopen
        rw [scanToken_eq (.dollar hc (hcons h)), htl h, List.length_cons, hlength h]
        exact Nat.succ_lt_succ (Nat.succ_lt_succ (length_dollarBody_append hb htail))
    | whitespace | line | var | semicolon | word | number | symbol => cases hopen

/-! ## Texts -/

/-- A comment that ends with its line. -/
def isLineComment (t : SqlTokenKind × List Char) : Bool :=
  t.1 = .comment && !(['/', '*'].isPrefixOf t.2)

/-- The last token is a line comment. -/
def endsInLineComment (sql : List Char) : Bool := (tokenContent sql).getLast?.any isLineComment

theorem lex_cons (c : Char) (rest : List Char) :
    (lex (c :: rest)).unterminated =
        ((scanToken c rest).unterminated || (lex (scanToken c rest).rest).unterminated) ∧
      (lex (c :: rest)).ambiguous =
        ((scanToken c rest).ambiguous || (lex (scanToken c rest).rest).ambiguous) := by
  obtain ⟨-, hu, ha⟩ := lexFrom_start rest.length (0 + utf8Len (scanToken c rest).text)
    (scanToken c rest).rest
  have hfuel := lexFrom_fuel 0 (length_rest_scanToken c rest)
    (Nat.le_refl (scanToken c rest).rest.length)
  rw [hfuel] at hu ha
  simp only [lex, List.length_cons, lexFrom, hu, ha, and_self]

theorem tokenContent_ne_nil {s : List Char} (h : s ≠ []) : tokenContent s ≠ [] := by
  obtain ⟨c, rest, rfl⟩ := List.exists_cons_of_ne_nil h
  rw [(lexFrom_cons c rest).1]
  exact List.cons_ne_nil _ _

theorem Arm.rest_eq_nil {c : Char} {rest : List Char} {s : Scanned} (h : Arm c rest s)
    (hopen : s.unterminated = true) : s.rest = [] := by
  cases h with
  | block => exact (rest_of_not_closed (s := rest.tail)).2.2.2 (by simpa using hopen)
  | string => exact (rest_of_not_closed (s := rest)).1 (by simpa using hopen)
  | identifier => exact (rest_of_not_closed (s := rest)).2.1 (by simpa using hopen)
  | dollar => exact (rest_of_not_closed (s := rest.tail)).2.2.1 (by simpa using hopen)
  | whitespace | line | var | semicolon | word | number | symbol => cases hopen

theorem Arm.text_ne_nil {c : Char} {rest : List Char} {s : Scanned} (h : Arm c rest s) :
    s.text ≠ [] := by
  intro heq
  have happend := h.append_eq
  have hlength := length_rest_scanToken c rest
  rw [scanToken_eq h] at hlength
  rw [heq, List.nil_append] at happend
  rw [happend, List.length_cons] at hlength
  omega

/-- The first of two slashes or two dashes opens a line comment, and nothing else does. -/
theorem Arm.isLineComment_iff {c : Char} {rest : List Char} {s : Scanned} (h : Arm c rest s) :
    isLineComment (s.kind, s.text) = true ↔ StartsLine c rest := by
  constructor
  · intro hline
    cases h with
    | line h => exact h
    | whitespace | block | string | identifier | dollar | var | semicolon | word | number
    | symbol => simp [isLineComment, runOf] at hline
  · intro hstarts
    have hs := scanToken_eq (.line hstarts : Arm c rest _)
    rw [scanToken_eq h] at hs
    subst hs
    obtain ⟨hc, d, rest', rfl, hd⟩ := hstarts.ne_newline
    have htext : (lineEnd (c :: d :: rest')).1 = c :: d :: rest'.takeWhile (· ≠ '\n') := by
      simp [lineEnd, hc, hd]
    rw [isLineComment, htext]
    rcases hstarts with ⟨rfl, -⟩ | ⟨rfl, hslash⟩
    · rfl
    · obtain rfl : d = '/' := Option.some.inj hslash
      rfl

theorem endsInLineComment_cons (c : Char) (rest : List Char) :
    endsInLineComment (c :: rest) = true ↔
      ((scanToken c rest).rest = [] ∧ StartsLine c rest) ∨
        endsInLineComment (scanToken c rest).rest = true := by
  have harm := arm_scanToken c rest
  unfold endsInLineComment
  rw [(lexFrom_cons c rest).1]
  by_cases hrest : (scanToken c rest).rest = []
  · rw [hrest, tokenContent_nil, List.getLast?_singleton, Option.any_some, harm.isLineComment_iff]
    simp
  · obtain ⟨t, ts, hts⟩ := List.exists_cons_of_ne_nil (tokenContent_ne_nil hrest)
    rw [hts, List.getLast?_cons_cons]
    simp [hrest]

variable {s tail : List Char}

/-- A text that ends outside of every token and line comment is lexed alike in front of a
parenthesis. -/
theorem tokenContent_append (tail : List Char) (hclosed : (lex s).unterminated = false)
    (hline : endsInLineComment s = false) (htail : ∀ t ∈ tokenContent s, Parts t.1 tail) :
    tokenContent (s ++ tail) = tokenContent s ++ tokenContent tail ∧
      (lex (s ++ tail)).unterminated = (lex tail).unterminated ∧
      (lex (s ++ tail)).ambiguous = ((lex s).ambiguous || (lex tail).ambiguous) := by
  induction hn : s.length using Nat.strong_induction_on generalizing s with
  | _ n ih =>
      cases s with
      | nil => exact ⟨rfl, rfl, rfl⟩
      | cons c rest =>
          have hlt : (scanToken c rest).rest.length < n := by
            have hle := length_rest_scanToken c rest
            rw [List.length_cons] at hn
            omega
          rw [(lex_cons c rest).1, Bool.or_eq_false_iff] at hclosed
          rw [← Bool.not_eq_true, endsInLineComment_cons, not_or, Bool.not_eq_true] at hline
          rw [(lexFrom_cons c rest).1, List.forall_mem_cons] at htail
          have harm := (arm_scanToken c rest).append_parts hclosed.1
            (fun hrest h ↦ hline.1 ⟨hrest, h⟩) htail.1
          obtain ⟨ht, hu, ha⟩ := ih _ hlt hclosed.2 hline.2 htail.2 rfl
          rw [List.cons_append, (lexFrom_cons _ _).1, (lex_cons _ _).1, (lex_cons _ _).2,
            scanToken_eq harm, (lexFrom_cons c rest).1, (lex_cons c rest).2]
          dsimp only
          rw [ht, hu, ha, hclosed.1, Bool.or_assoc]
          exact ⟨rfl, rfl, rfl⟩

/-- The last token of another text takes the parenthesis in, so no token ends with the text. -/
theorem tokenContent_overrun (hopen : (lex s).unterminated = true ∨ endsInLineComment s = true)
    (htail : Breaks tail) (before after : List (SqlTokenKind × List Char))
    (heq : tokenContent (s ++ tail) = before ++ after) : (before.map Prod.snd).flatten ≠ s := by
  induction hn : s.length using Nat.strong_induction_on generalizing s before with
  | _ n ih =>
      cases s with
      | nil => rcases hopen with h | h <;> cases h
      | cons c rest =>
          have hlt : (scanToken c rest).rest.length < n := by
            have hle := length_rest_scanToken c rest
            rw [List.length_cons] at hn
            omega
          have harm := arm_scanToken c rest
          rw [(lex_cons c rest).1, Bool.or_eq_true, endsInLineComment_cons] at hopen
          rw [List.cons_append, (lexFrom_cons _ _).1] at heq
          cases before with
          | nil => exact (List.cons_ne_nil c rest).symm
          | cons t before =>
              obtain ⟨rfl, hrest⟩ := List.cons.inj heq
              by_cases htaken : (scanToken c rest).unterminated = true ∨
                  ((scanToken c rest).rest = [] ∧ StartsLine c rest)
              · intro hflat
                have hlength := harm.length_lt htaken htail
                rw [← hflat, List.map_cons, List.flatten_cons, List.length_append] at hlength
                exact absurd hlength (Nat.not_lt.mpr (Nat.le_add_right _ _))
              · obtain ⟨hclosed, hline⟩ := not_or.mp htaken
                have hnext := scanToken_eq (harm.append_parts (Bool.not_eq_true _ ▸ hclosed)
                  (fun hrest h ↦ hline ⟨hrest, h⟩) (Or.inl htail))
                rw [hnext] at hrest ⊢
                intro hflat
                rw [List.map_cons, List.flatten_cons, ← harm.append_eq] at hflat
                refine ih _ hlt ?_ before hrest rfl (List.append_cancel_left hflat)
                rcases hopen with (h | h) | (h | h)
                · exact absurd h hclosed
                · exact Or.inl h
                · exact absurd h hline
                · exact Or.inr h

/-- Lists of tokens that make up one text and start another list are one. -/
theorem eq_of_flatten {ts us vs ws : List (SqlTokenKind × List Char)} (h : ts ++ us = vs ++ ws)
    (hflat : (ts.map Prod.snd).flatten = (vs.map Prod.snd).flatten)
    (hne : ∀ t ∈ ts ++ us, t.2 ≠ []) : ts = vs ∧ us = ws := by
  induction ts generalizing vs with
  | nil =>
      cases vs with
      | nil => exact ⟨rfl, h⟩
      | cons v vs =>
          rw [List.nil_append] at h
          have hv := hne v (by rw [List.nil_append, h]; exact List.mem_cons_self)
          rw [List.map_nil, List.flatten_nil, List.map_cons, List.flatten_cons] at hflat
          exact absurd (List.append_eq_nil_iff.mp hflat.symm).1 hv
  | cons t ts ih =>
      cases vs with
      | nil =>
          have ht := hne t List.mem_cons_self
          rw [List.map_nil, List.flatten_nil, List.map_cons, List.flatten_cons] at hflat
          exact absurd (List.append_eq_nil_iff.mp hflat).1 ht
      | cons v vs =>
          obtain ⟨rfl, htail⟩ := List.cons.inj h
          rw [List.map_cons, List.flatten_cons, List.map_cons, List.flatten_cons] at hflat
          obtain ⟨hts, hus⟩ := ih htail (List.append_cancel_left hflat)
            fun t ht ↦ hne t (List.mem_cons_of_mem _ ht)
          exact ⟨congrArg _ hts, hus⟩

theorem ne_nil_of_mem_tokenContent {t : SqlTokenKind × List Char} (h : t ∈ tokenContent s) :
    t.2 ≠ [] :=
  @forall_tokenContent (fun t ↦ t.2 ≠ []) (fun _ _ _ harm ↦ harm.text_ne_nil) s t h

/-! ## Plain texts -/

/-- A character that opens no literal, no variable and no new line. -/
def isPlainChar (c : Char) : Bool :=
  c.isAlphanum || ['_', ' ', '@', '~', '%', '/', '.', '-', '=', '(', ')', '*'].contains c

theorem infix_append_iff {c : Char} {us ts : List Char} (h : c ∉ us) (cs : List Char) :
    (c :: cs) <:+: us ++ ts ↔ (c :: cs) <:+: ts := by
  induction us with
  | nil => rfl
  | cons d us ih =>
      obtain ⟨hd, hus⟩ := not_or.mp (mt List.mem_cons.mpr h)
      rw [List.cons_append, List.infix_cons_iff, ih hus]
      exact or_iff_right fun hstarts ↦ hd (List.cons_prefix_cons.mp hstarts).1

theorem isPlainChar_of_run {c : Char} {us : List Char} {p : Char → Bool} (hc : p c = false)
    (hus : ∀ d ∈ us, p d = true) : c ∉ us := by
  intro hmem
  rw [hus c hmem] at hc
  cases hc

/-- A plain text is closed, and ends in a line comment if it has two slashes in a row. -/
theorem lex_plain (hplain : ∀ c ∈ s, isPlainChar c = true) (hdash : ¬ ['-', '-'] <:+: s)
    (hstar : ¬ ['/', '*'] <:+: s) :
    (lex s).unterminated = false ∧ (lex s).ambiguous = false ∧
      (∀ t ∈ tokenContent s, t.1 ≠ .semicolon ∧ t.1 ≠ .stringLiteral) ∧
      (endsInLineComment s = true ↔ ['/', '/'] <:+: s) := by
  induction hn : s.length using Nat.strong_induction_on generalizing s with
  | _ n ih =>
      cases s with
      | nil => exact ⟨rfl, rfl, by simp, by simp [endsInLineComment]⟩
      | cons c rest =>
          have hlt : (scanToken c rest).rest.length < n := by
            have hle := length_rest_scanToken c rest
            rw [List.length_cons] at hn
            omega
          have harm := arm_scanToken c rest
          have happend := harm.append_eq
          have hfactor (cs : List Char) (h : cs <:+: (scanToken c rest).rest) : cs <:+: c :: rest :=
            happend ▸ h.trans (List.suffix_append _ _).isInfix
          obtain ⟨hu, ha, hsemi, hline⟩ := ih _ hlt
            (fun d hd ↦ hplain d (happend ▸ List.mem_append_right _ hd))
            (fun h ↦ hdash (hfactor _ h)) (fun h ↦ hstar (hfactor _ h)) rfl
          have hfirst := hplain c List.mem_cons_self
          rw [(lex_cons c rest).1, (lex_cons c rest).2, (lexFrom_cons c rest).1, hu, ha,
            endsInLineComment_cons, hline, List.forall_mem_cons]
          have hother (hstarts : ¬ StartsLine c rest) (hfree : '/' ∉ (scanToken c rest).text) :
              (((scanToken c rest).rest = [] ∧ StartsLine c rest) ∨
                ['/', '/'] <:+: (scanToken c rest).rest) ↔ ['/', '/'] <:+: c :: rest := by
            rw [← happend, infix_append_iff hfree]
            exact or_iff_right fun h ↦ hstarts h.2
          generalize hs : scanToken c rest = sc at harm hother hsemi
          cases harm with
          | whitespace h =>
              refine ⟨rfl, rfl, ⟨⟨nofun, nofun⟩, hsemi⟩, hother ?_ ?_⟩
              · rintro (⟨rfl, -⟩ | ⟨rfl, -⟩) <;> exact absurd h (by decide)
              · exact isPlainChar_of_run (p := isAsciiWhitespace) (by decide)
                  fun _ hd ↦ List.mem_takeWhile_imp hd
          | line h =>
              have hrest : (lineEnd (c :: rest)).2 = [] := by
                refine List.dropWhile_eq_nil_iff.mpr fun d hd ↦ decide_eq_true ?_
                rintro rfl
                exact absurd (hplain _ hd) (by decide)
              refine ⟨rfl, rfl, ⟨⟨nofun, nofun⟩, hsemi⟩, iff_of_true (Or.inl ⟨hrest, h⟩) ?_⟩
              rcases h with ⟨rfl, h⟩ | ⟨rfl, h⟩
              · rw [eq_cons_of_head? h] at hdash
                exact absurd (List.prefix_append ['-', '-'] rest.tail).isInfix hdash
              · rw [eq_cons_of_head? h]
                exact (List.prefix_append ['/', '/'] rest.tail).isInfix
          | block hc h =>
              rw [hc, eq_cons_of_head? h] at hstar
              exact absurd (List.prefix_append ['/', '*'] rest.tail).isInfix hstar
          | string hc | identifier hc | semicolon hc =>
              rw [hc] at hfirst
              exact absurd hfirst (by decide)
          | dollar hc h | var hc h =>
              rw [hc] at hfirst
              exact absurd hfirst (by decide)
          | word h =>
              refine ⟨rfl, rfl, ⟨⟨nofun, nofun⟩, hsemi⟩, hother ?_ ?_⟩
              · rintro (⟨rfl, -⟩ | ⟨rfl, -⟩) <;> exact absurd h (by decide)
              · exact isPlainChar_of_run (p := isIdentifierByte) (by decide)
                  fun _ hd ↦ List.mem_takeWhile_imp hd
          | number h =>
              refine ⟨rfl, rfl, ⟨⟨nofun, nofun⟩, hsemi⟩, hother ?_ ?_⟩
              · rintro (⟨rfl, -⟩ | ⟨rfl, -⟩) <;> exact absurd h (by decide)
              · refine isPlainChar_of_run (p := fun d ↦ d.isAlphanum || d = '.') (by decide) ?_
                exact fun d hd ↦ List.mem_takeWhile_imp (p := fun d ↦ d.isAlphanum || d = '.') hd
          | symbol h =>
              refine ⟨rfl, rfl, ⟨⟨nofun, nofun⟩, hsemi⟩, ?_⟩
              by_cases hc : c = '/'
              · rw [List.infix_cons_iff]
                refine or_congr (iff_of_false (fun h' ↦ h.line h'.2) fun hstarts ↦ ?_) Iff.rfl
                obtain ⟨-, more, hmore⟩ := List.cons_prefix_cons.mp hstarts
                exact h.line (Or.inr ⟨hc, by rw [← hmore]; rfl⟩)
              · exact hother h.line fun hmem ↦ hc (List.mem_singleton.mp hmem).symm

/-! ## Literals -/

/-- A string literal without quotes and backslashes, in front of anything but a quote. -/
theorem lex_string {cs : List Char} (hquote : '\'' ∉ cs) (hescape : '\\' ∉ cs)
    (htail : tail.head? ≠ some '\'') :
    tokenContent ('\'' :: (cs ++ '\'' :: tail)) =
        (.stringLiteral, '\'' :: (cs ++ ['\''])) :: tokenContent tail ∧
      (lex ('\'' :: (cs ++ '\'' :: tail))).unterminated = (lex tail).unterminated ∧
      (lex ('\'' :: (cs ++ '\'' :: tail))).ambiguous = (lex tail).ambiguous := by
  have hbody : stringBody (cs ++ '\'' :: tail) = ⟨cs ++ ['\''], tail, true⟩ := by
    induction cs with
    | nil => exact stringBody_quote htail
    | cons c cs ih =>
        obtain ⟨hc, hcs⟩ := not_or.mp (mt List.mem_cons.mpr hquote)
        obtain ⟨hc', hcs'⟩ := not_or.mp (mt List.mem_cons.mpr hescape)
        rw [List.cons_append, stringBody_cons (Ne.symm hc') (Ne.symm hc), ih hcs hcs']
        rfl
  have hscan : scanToken '\'' (cs ++ '\'' :: tail) =
      { kind := .stringLiteral, text := '\'' :: (cs ++ ['\'']), rest := tail } := by
    rw [scanToken_eq (.string rfl), hbody]
    rfl
  rw [(lexFrom_cons _ _).1, (lex_cons _ _).1, (lex_cons _ _).2, hscan]
  exact ⟨rfl, Bool.false_or _, Bool.false_or _⟩

/-- A parenthesis is a token by itself. -/
theorem lex_paren {c : Char} (hc : c = '(' ∨ c = ')') (tail : List Char) :
    tokenContent (c :: tail) = (.symbol, [c]) :: tokenContent tail ∧
      (lex (c :: tail)).unterminated = (lex tail).unterminated ∧
      (lex (c :: tail)).ambiguous = (lex tail).ambiguous := by
  have hscan : scanToken c tail = { kind := .symbol, text := [c], rest := tail } := by
    rcases hc with rfl | rfl <;> rfl
  rw [(lexFrom_cons _ _).1, (lex_cons _ _).1, (lex_cons _ _).2, hscan]
  exact ⟨rfl, Bool.false_or _, Bool.false_or _⟩

/-- A character of plain text that opens no comment either. -/
def isSafeChar (c : Char) : Bool := isPlainChar c && c ≠ '-' && c ≠ '/'

theorem lex_safe (h : s.all isSafeChar) :
    (lex s).unterminated = false ∧ (lex s).ambiguous = false ∧
      (∀ t ∈ tokenContent s, t.1 ≠ .semicolon ∧ t.1 ≠ .stringLiteral) ∧
      endsInLineComment s = false := by
  have hsafe : ∀ c ∈ s, isPlainChar c = true ∧ c ≠ '-' ∧ c ≠ '/' := fun c hc ↦ by
    have hall := List.all_eq_true.mp h c hc
    rw [isSafeChar, Bool.and_eq_true, Bool.and_eq_true, decide_eq_true_eq, decide_eq_true_eq] at hall
    exact ⟨hall.1.1, hall.1.2, hall.2⟩
  have hslash {cs : List Char} : ¬ ('/' :: cs) <:+: s := fun hfactor ↦
    (hsafe '/' (hfactor.subset List.mem_cons_self)).2.2 rfl
  have hdash : ¬ ['-', '-'] <:+: s := fun hfactor ↦
    (hsafe '-' (hfactor.subset List.mem_cons_self)).2.1 rfl
  obtain ⟨hu, ha, hkinds, hline⟩ := lex_plain (fun c hc ↦ (hsafe c hc).1) hdash hslash
  exact ⟨hu, ha, hkinds, Bool.eq_false_iff.mpr fun htrue ↦ hslash (hline.mp htrue)⟩

/-! ## Statements -/

theorem countSegments_single {ts : List SqlToken} (h : ∀ t ∈ ts, t.kind ≠ .semicolon)
    (content : Bool) : SqlLex.countSegments content ts = (content || !ts.isEmpty).toNat := by
  induction ts generalizing content with
  | nil => simp [SqlLex.countSegments]
  | cons t ts ih =>
      obtain ⟨ht, hts⟩ := List.forall_mem_cons.mp h
      simp [SqlLex.countSegments, ht, ih hts]

theorem one_le_countSegments {ts : List SqlToken} (h : ∃ t ∈ ts, t.kind ≠ .semicolon)
    (content : Bool) : 1 ≤ SqlLex.countSegments content ts := by
  have hcontent (ts : List SqlToken) : 1 ≤ SqlLex.countSegments true ts := by
    induction ts with
    | nil => simp [SqlLex.countSegments]
    | cons t ts ih =>
        unfold SqlLex.countSegments
        split_ifs
        · exact Nat.le_add_right 1 _
        · exact ih
  induction ts generalizing content with
  | nil =>
      obtain ⟨t, ht, -⟩ := h
      cases ht
  | cons t ts ih =>
      unfold SqlLex.countSegments
      split_ifs with ht
      · obtain ⟨u, hu, hkind⟩ := h
        rcases List.mem_cons.mp hu with rfl | hu
        · exact absurd ht hkind
        · exact (ih ⟨u, hu, hkind⟩ false).trans (Nat.le_add_left _ _)
      · exact hcontent ts

/-- A semicolon between other tokens makes two statements. -/
theorem two_le_countSegments {ts us : List SqlToken} {s : SqlToken} (hs : s.kind = .semicolon)
    (hus : ∃ t ∈ us, t.kind ≠ .semicolon) (content : Bool)
    (hts : content = true ∨ ∃ t ∈ ts, t.kind ≠ .semicolon) :
    2 ≤ SqlLex.countSegments content (ts ++ s :: us) := by
  induction ts generalizing content with
  | nil =>
      have hcontent : content = true := hts.resolve_right fun ⟨_, h, _⟩ ↦ nomatch h
      rw [List.nil_append, SqlLex.countSegments, if_pos hs, hcontent]
      exact Nat.add_le_add_left (one_le_countSegments hus false) 1
  | cons t ts ih =>
      rw [List.cons_append, SqlLex.countSegments]
      split_ifs with ht
      · cases content with
        | true =>
            obtain ⟨u, hu, hkind⟩ := hus
            refine Nat.add_le_add_left (one_le_countSegments ⟨u, ?_, hkind⟩ false) 1
            exact List.mem_append_right _ (List.mem_cons_of_mem _ hu)
        | false =>
            refine (ih false (Or.inr ?_)).trans (Nat.le_add_left _ _)
            obtain ⟨u, hu, hkind⟩ := hts.resolve_left Bool.false_ne_true
            rcases List.mem_cons.mp hu with rfl | hu
            · exact absurd ht hkind
            · exact ⟨u, hu, hkind⟩
      · exact ih true (Or.inl rfl)

/-- A text has one statement if it has no semicolon and a token that matters. -/
theorem statementCount_eq_one {sql : List Char} (h : ∀ t ∈ tokenContent sql, t.1 ≠ .semicolon)
    (hsome : ∃ t ∈ tokenContent sql, isTriviaKind t.1 = false) : (lex sql).statementCount = 1 := by
  have hsingle : ∀ t ∈ (lex sql).significant, t.kind ≠ .semicolon := fun t ht ↦
    h t.content (List.mem_map_of_mem (List.mem_of_mem_filter ht))
  have hne : (lex sql).significant ≠ [] := by
    obtain ⟨_, hmem, htrivia⟩ := hsome
    obtain ⟨t, ht, rfl⟩ := List.mem_map.mp hmem
    refine List.ne_nil_of_mem (List.mem_filter.mpr ⟨ht, ?_⟩)
    rw [show t.isTrivia = isTriviaKind t.content.1 from rfl, htrivia]
    rfl
  rw [SqlLex.statementCount, countSegments_single hsingle]
  simp [hne]

/-- A text with one statement has no semicolon between tokens that matter. -/
theorem ne_semicolon_of_statementCount {sql : List Char} (h : (lex sql).statementCount = 1)
    {ts us : List (SqlTokenKind × List Char)} {s : SqlTokenKind × List Char}
    (heq : tokenContent sql = ts ++ s :: us)
    (hts : ∃ t ∈ ts, isTriviaKind t.1 = false ∧ t.1 ≠ .semicolon)
    (hus : ∃ t ∈ us, isTriviaKind t.1 = false ∧ t.1 ≠ .semicolon) : s.1 ≠ .semicolon := by
  intro hs
  obtain ⟨as, bs, hlex, rfl, hbs⟩ := List.map_eq_append_iff.mp heq
  obtain ⟨b, cs, rfl, rfl, rfl⟩ := List.map_eq_cons_iff.mp hbs
  have hmatters {ts : List SqlToken}
      (h : ∃ t ∈ ts.map SqlToken.content, isTriviaKind t.1 = false ∧ t.1 ≠ .semicolon) :
      ∃ t ∈ ts.filter fun t ↦ !t.isTrivia, t.kind ≠ .semicolon := by
    obtain ⟨_, hmem, htrivia, hkind⟩ := h
    obtain ⟨t, ht, rfl⟩ := List.mem_map.mp hmem
    refine ⟨t, List.mem_filter.mpr ⟨ht, ?_⟩, hkind⟩
    rw [show t.isTrivia = isTriviaKind t.content.1 from rfl, htrivia]
    rfl
  have hb : b.kind = .semicolon := hs
  have hsignificant : (lex sql).significant =
      as.filter (fun t ↦ !t.isTrivia) ++ b :: cs.filter fun t ↦ !t.isTrivia := by
    rw [SqlLex.significant, hlex, List.filter_append, List.filter_cons_of_pos]
    rw [SqlToken.isTrivia, hb]
    rfl
  have htwo := two_le_countSegments hb (hmatters hus) false (Or.inr (hmatters hts))
  rw [SqlLex.statementCount, hsignificant] at h
  omega

end FrankenSnowflake.SqlLexer
