import Mathlib.Data.List.Basic
import Mathlib.Data.List.Forall2

/-!
# SQL conditions

Conditions over columns and parameters, a parser with the precedence of SQL (`NOT`
over `AND` over `OR`), and their value in three-valued logic.
-/

namespace Foundation.SqlCondition

/-! ## Three-valued logic -/

/-- True, false, or unknown. -/
abbrev Truth := Option Bool

namespace Truth

def not : Truth → Truth := Option.map (!·)

def and : Truth → Truth → Truth
  | some false, _ | _, some false => some false
  | some true, some true => some true
  | none, none | none, some true | some true, none => none

def or : Truth → Truth → Truth
  | some true, _ | _, some true => some true
  | some false, some false => some false
  | none, none | none, some false | some false, none => none

@[simp] theorem true_and (t : Truth) : and (some true) t = t := by rcases t with _ | _ | _ <;> rfl

@[simp] theorem and_true (t : Truth) : and t (some true) = t := by rcases t with _ | _ | _ <;> rfl

@[simp] theorem false_or (t : Truth) : or (some false) t = t := by rcases t with _ | _ | _ <;> rfl

@[simp] theorem or_false (t : Truth) : or t (some false) = t := by rcases t with _ | _ | _ <;> rfl

theorem and_assoc (s t u : Truth) : and (and s t) u = and s (and t u) := by
  rcases s with _ | _ | _ <;> rcases t with _ | _ | _ <;> rcases u with _ | _ | _ <;> rfl

/-- All of these. -/
def all (ts : List Truth) : Truth := ts.foldr and (some true)

/-- One of these. -/
def any (ts : List Truth) : Truth := ts.foldr or (some false)

@[simp] theorem all_nil : all [] = some true := rfl

@[simp] theorem all_cons (t : Truth) (ts : List Truth) : all (t :: ts) = and t (all ts) := rfl

@[simp] theorem any_nil : any [] = some false := rfl

@[simp] theorem any_cons (t : Truth) (ts : List Truth) : any (t :: ts) = or t (any ts) := rfl

theorem all_append (ts us : List Truth) : all (ts ++ us) = and (all ts) (all us) := by
  induction ts with
  | nil => rw [List.nil_append, all_nil, true_and]
  | cons t ts ih => rw [List.cons_append, all_cons, all_cons, ih, and_assoc]

end Truth

/-! ## Conditions -/

/-- An operand without operands. -/
inductive Atom where
  | column (name : List Char)
  | param (index : Nat)
  | number (text : List Char)
deriving DecidableEq, Repr

inductive Operand where
  | atom (a : Atom)
  /-- `POSITION(needle IN hay)`. -/
  | position (needle hay : Atom)
deriving DecidableEq, Repr

inductive Comparison where
  | compare (symbol : String) (left right : Operand)
  | between (x low high : Operand)
  | isIn (x : Operand) (items : List Operand)
  | isNull (x : Operand)
  | isNotNull (x : Operand)
deriving DecidableEq, Repr

inductive Cond where
  | comparison (c : Comparison)
  | not (c : Cond)
  | and (c d : Cond)
  | or (c d : Cond)
deriving DecidableEq, Repr

/-! ## Values -/

/-- What the operators of a database do with its values. -/
structure Interpretation (V : Type) where
  isNull : V → Bool
  compare : String → V → V → Truth
  position : V → V → V
  number : List Char → V

section Eval

variable {V : Type} (I : Interpretation V) (row : List Char → V) (params : Nat → V)

def Atom.value : Atom → V
  | column name => row name
  | param index => params index
  | number text => I.number text

def Operand.value : Operand → V
  | atom a => a.value I row params
  | position needle hay => I.position (needle.value I row params) (hay.value I row params)

def Comparison.eval : Comparison → Truth
  | compare symbol left right =>
      I.compare symbol (left.value I row params) (right.value I row params)
  | between x low high =>
      Truth.and (I.compare ">=" (x.value I row params) (low.value I row params))
        (I.compare "<=" (x.value I row params) (high.value I row params))
  | isIn x items =>
      Truth.any (items.map fun item ↦ I.compare "=" (x.value I row params) (item.value I row params))
  | isNull x => some (I.isNull (x.value I row params))
  | isNotNull x => some (!I.isNull (x.value I row params))

def Cond.eval : Cond → Truth
  | comparison c => c.eval I row params
  | not c => (c.eval).not
  | and c d => Truth.and c.eval d.eval
  | or c d => Truth.or c.eval d.eval

end Eval

/-! ## Parsing -/

inductive Token where
  /-- A word, in lower case. -/
  | word (w : List Char)
  | column (name : List Char)
  | param (index : Nat)
  | number (text : List Char)
  | symbol (c : Char)
  | other (text : List Char)
deriving DecidableEq, Repr

def Token.kw (w : String) : Token := .word w.toList

/-- A token at the front. -/
def expect (t : Token) (ts : List Token) : Option (List Token) :=
  if ts.head? = some t then some ts.tail else none

def parseAtom : List Token → Option (Atom × List Token)
  | .column name :: ts => some (.column name, ts)
  | .param index :: ts => some (.param index, ts)
  | .number text :: ts => some (.number text, ts)
  | _ => none

def parseOperand (ts : List Token) : Option (Operand × List Token) :=
  if ts.head? = some (.kw "position") then do
    let (needle, ts) ← parseAtom (← expect (.symbol '(') ts.tail)
    let (hay, ts) ← parseAtom (← expect (.kw "in") ts)
    return (.position needle hay, ← expect (.symbol ')') ts)
  else (parseAtom ts).map fun (a, ts) ↦ (.atom a, ts)

/-- The symbols of the comparisons, a longer one before its parts. -/
def comparisonSymbols : List String := ["<=", ">=", "!=", "<", ">", "="]

/-- The symbol at the front of a text. -/
def parseSymbol (ts : List Token) : Option (String × List Token) :=
  (comparisonSymbols.find? fun s ↦ (s.toList.map Token.symbol).isPrefixOf ts).map fun s ↦
    (s, ts.drop s.toList.length)

/-- Operands up to a parenthesis, behind the first. -/
def parseItems : Nat → List Token → Option (List Operand × List Token)
  | 0, _ => none
  | fuel + 1, ts =>
      if ts.head? = some (.symbol ')') then some ([], ts.tail)
      else do
        let (item, ts) ← parseOperand (← expect (.symbol ',') ts)
        let (items, ts) ← parseItems fuel ts
        return (item :: items, ts)

/-- The items of `IN`, behind its parenthesis. -/
def parseList (ts : List Token) : Option (List Operand × List Token) :=
  if ts.head? = some (.symbol ')') then some ([], ts.tail)
  else do
    let (item, ts) ← parseOperand ts
    let (items, ts) ← parseItems ts.length ts
    return (item :: items, ts)

def parseComparison (ts : List Token) : Option (Comparison × List Token) := do
  let (x, ts) ← parseOperand ts
  if ts.head? = some (.kw "between") then do
    let (low, ts) ← parseOperand ts.tail
    let (high, ts) ← parseOperand (← expect (.kw "and") ts)
    return (.between x low high, ts)
  else if ts.head? = some (.kw "in") then do
    let (items, ts) ← parseList (← expect (.symbol '(') ts.tail)
    return (.isIn x items, ts)
  else if ts.head? = some (.kw "is") then
    if ts.tail.head? = some (.kw "not") then do
      return (.isNotNull x, ← expect (.kw "null") ts.tail.tail)
    else do return (.isNull x, ← expect (.kw "null") ts.tail)
  else do
    let (symbol, ts) ← parseSymbol ts
    let (y, ts) ← parseOperand ts
    return (.compare symbol x y, ts)

/-- The levels of precedence, the loosest last. -/
inductive Level where
  | primary
  | negation
  | conjunction
  | disjunction
deriving DecidableEq, Repr

/-- A condition of a level at the front of a text. -/
def parse : Nat → Level → List Token → Option (Cond × List Token)
  | 0, _, _ => none
  | fuel + 1, .disjunction, ts => do
      let (c, ts) ← parse fuel .conjunction ts
      if ts.head? = some (.kw "or") then do
        let (d, ts) ← parse fuel .disjunction ts.tail
        return (.or c d, ts)
      else return (c, ts)
  | fuel + 1, .conjunction, ts => do
      let (c, ts) ← parse fuel .negation ts
      if ts.head? = some (.kw "and") then do
        let (d, ts) ← parse fuel .conjunction ts.tail
        return (.and c d, ts)
      else return (c, ts)
  | fuel + 1, .negation, ts =>
      if ts.head? = some (.kw "not") then
        (parse fuel .negation ts.tail).map fun (c, ts) ↦ (.not c, ts)
      else parse fuel .primary ts
  | fuel + 1, .primary, ts =>
      if ts.head? = some (.symbol '(') then do
        let (c, ts) ← parse fuel .disjunction ts.tail
        return (c, ← expect (.symbol ')') ts)
      else (parseComparison ts).map fun (c, ts) ↦ (.comparison c, ts)

/-! ## Comparisons that are read -/

def Atom.token : Atom → Token
  | column name => .column name
  | param index => .param index
  | number text => .number text

def Operand.tokens : Operand → List Token
  | atom a => [a.token]
  | position needle hay =>
      [.kw "position", .symbol '(', needle.token, .kw "in", hay.token, .symbol ')']

theorem parseAtom_token (a : Atom) (rest : List Token) :
    parseAtom (a.token :: rest) = some (a, rest) := by cases a <;> rfl

theorem Atom.token_ne_word (a : Atom) (w : List Char) : a.token ≠ .word w := by
  cases a <;> exact nofun

theorem Atom.token_ne_symbol (a : Atom) (c : Char) : a.token ≠ .symbol c := by
  cases a <;> exact nofun

theorem parseOperand_tokens (x : Operand) (rest : List Token) :
    parseOperand (x.tokens ++ rest) = some (x, rest) := by
  cases x with
  | atom a =>
      have hhead : (a.token :: rest).head? ≠ some (Token.kw "position") :=
        fun h ↦ a.token_ne_word _ (Option.some.inj h)
      rw [Operand.tokens, List.singleton_append, parseOperand, if_neg hhead, parseAtom_token]
      rfl
  | position needle hay =>
      show parseOperand (.kw "position" :: .symbol '(' :: needle.token :: .kw "in" :: hay.token ::
        .symbol ')' :: rest) = _
      simp only [parseOperand, List.head?_cons, if_pos, List.tail_cons, expect, parseAtom_token,
        Option.bind_eq_bind, Option.bind_some]
      rfl

/-- The head of an operand. -/
theorem Operand.tokens_eq (x : Operand) : ∃ t ts, x.tokens = t :: ts ∧
    (∀ c, t ≠ .symbol c) ∧ t ≠ .kw "not" ∧ t ≠ .kw "and" ∧ t ≠ .kw "or" := by
  cases x with
  | atom a =>
      exact ⟨a.token, [], rfl, a.token_ne_symbol, a.token_ne_word _, a.token_ne_word _,
        a.token_ne_word _⟩
  | position needle hay =>
      exact ⟨_, _, rfl, nofun, by simp [Token.kw], by simp [Token.kw], by simp [Token.kw]⟩

theorem parseSymbol_append {symbol : String} (h : symbol ∈ comparisonSymbols) (x : Operand)
    (rest : List Token) : parseSymbol (symbol.toList.map Token.symbol ++ (x.tokens ++ rest)) =
      some (symbol, x.tokens ++ rest) := by
  obtain ⟨t, ts, hx, hsymbol, -⟩ := x.tokens_eq
  have hne : ∀ c, ¬ Token.symbol c = t := fun c h ↦ hsymbol c h.symm
  rw [hx]
  simp only [comparisonSymbols, List.mem_cons, List.not_mem_nil, or_false] at h
  rcases h with rfl | rfl | rfl | rfl | rfl | rfl <;>
    simp [parseSymbol, comparisonSymbols, hne]

/-- A text that is read as a comparison wherever it stands. -/
def ReadsComparison (ts : List Token) (c : Comparison) : Prop :=
  (∃ x rest, ts = Operand.tokens x ++ rest) ∧
    ∀ rest, parseComparison (ts ++ rest) = some (c, rest)

theorem readsComparison_compare {symbol : String} (h : symbol ∈ comparisonSymbols)
    (x y : Operand) : ReadsComparison (x.tokens ++ (symbol.toList.map Token.symbol ++ y.tokens))
      (.compare symbol x y) := by
  refine ⟨⟨x, _, rfl⟩, fun rest ↦ ?_⟩
  have hhead : ∀ w, (symbol.toList.map Token.symbol ++ (y.tokens ++ rest)).head? ≠
      some (Token.kw w) := by
    simp only [comparisonSymbols, List.mem_cons, List.not_mem_nil, or_false] at h
    rcases h with rfl | rfl | rfl | rfl | rfl | rfl <;> simp [Token.kw]
  rw [List.append_assoc, List.append_assoc, parseComparison, parseOperand_tokens]
  simp only [Option.bind_eq_bind, Option.bind_some, if_neg (hhead _), parseSymbol_append h,
    parseOperand_tokens]
  rfl

theorem readsComparison_between (x low high : Operand) :
    ReadsComparison (x.tokens ++ .kw "between" :: (low.tokens ++ .kw "and" :: high.tokens))
      (.between x low high) := by
  refine ⟨⟨x, _, rfl⟩, fun rest ↦ ?_⟩
  rw [List.append_assoc, parseComparison, parseOperand_tokens]
  simp only [Option.bind_eq_bind, Option.bind_some, List.cons_append, List.head?_cons, if_pos,
    List.tail_cons, List.append_assoc, parseOperand_tokens, expect]
  rfl

theorem readsComparison_isNull (x : Operand) :
    ReadsComparison (x.tokens ++ [.kw "is", .kw "null"]) (.isNull x) := by
  refine ⟨⟨x, _, rfl⟩, fun rest ↦ ?_⟩
  rw [List.append_assoc, parseComparison, parseOperand_tokens]
  rfl

theorem readsComparison_isNotNull (x : Operand) :
    ReadsComparison (x.tokens ++ [.kw "is", .kw "not", .kw "null"]) (.isNotNull x) := by
  refine ⟨⟨x, _, rfl⟩, fun rest ↦ ?_⟩
  rw [List.append_assoc, parseComparison, parseOperand_tokens]
  rfl

/-- Items behind the first, each behind a comma. -/
def itemTokens (items : List Operand) : List Token :=
  items.flatMap fun item ↦ .symbol ',' :: item.tokens

theorem parseItems_tokens (items : List Operand) (rest : List Token) : ∀ {fuel : Nat},
    items.length < fuel →
      parseItems fuel (itemTokens items ++ .symbol ')' :: rest) = some (items, rest) := by
  induction items with
  | nil =>
      intro fuel hfuel
      obtain ⟨fuel, rfl⟩ := Nat.exists_eq_succ_of_ne_zero (Nat.ne_of_gt hfuel)
      rfl
  | cons item items ih =>
      intro fuel hfuel
      obtain ⟨fuel, rfl⟩ := Nat.exists_eq_succ_of_ne_zero (Nat.ne_of_gt (Nat.zero_lt_of_lt hfuel))
      rw [itemTokens, List.flatMap_cons, List.cons_append, List.cons_append, List.append_assoc,
        parseItems, if_neg (by simp)]
      simp only [expect, List.head?_cons, if_pos, List.tail_cons, Option.bind_eq_bind,
        Option.bind_some, parseOperand_tokens]
      have hrest := ih (Nat.lt_of_succ_lt_succ hfuel)
      rw [itemTokens] at hrest
      rw [hrest]
      rfl

theorem length_le_itemTokens (items : List Operand) : items.length ≤ (itemTokens items).length := by
  induction items with
  | nil => exact Nat.zero_le _
  | cons item items ih =>
      rw [itemTokens, List.flatMap_cons, List.length_append, List.length_cons, List.length_cons]
      rw [itemTokens] at ih
      omega

/-- The tokens of a list of operands. -/
def listTokens : List Operand → List Token
  | [] => []
  | item :: items => item.tokens ++ itemTokens items

theorem readsComparison_isIn (x : Operand) (items : List Operand) :
    ReadsComparison (x.tokens ++ .kw "in" :: .symbol '(' :: (listTokens items ++ [.symbol ')']))
      (.isIn x items) := by
  refine ⟨⟨x, _, rfl⟩, fun rest ↦ ?_⟩
  have hlist : parseList (listTokens items ++ .symbol ')' :: rest) = some (items, rest) := by
    cases items with
    | nil => rfl
    | cons item items =>
        obtain ⟨t, ts, hitem, hsymbol, -⟩ := item.tokens_eq
        have hhead : (item.tokens ++ (itemTokens items ++ .symbol ')' :: rest)).head? ≠
            some (.symbol ')') := by
          rw [hitem]
          exact fun h ↦ hsymbol ')' (Option.some.inj h)
        rw [listTokens, List.append_assoc, parseList, if_neg hhead]
        simp only [Option.bind_eq_bind, Option.bind_some, parseOperand_tokens]
        rw [parseItems_tokens items rest]
        · rfl
        · have hlength := length_le_itemTokens items
          rw [List.length_append, List.length_cons]
          omega
  rw [List.append_assoc, parseComparison, parseOperand_tokens]
  simp only [Option.bind_eq_bind, Option.bind_some, List.cons_append, List.head?_cons,
    List.tail_cons, List.append_assoc, List.nil_append, expect, if_pos,
    if_neg (by simp [Token.kw] : ¬ some (Token.kw "in") = some (Token.kw "between")), hlist]
  rfl

/-! ## Conditions that are read -/

/-- What may follow a condition of a level. -/
def Stops (level : Level) (rest : List Token) : Prop :=
  match level with
  | .primary | .negation => True
  | .conjunction => rest.head? ≠ some (.kw "and")
  | .disjunction => rest.head? ≠ some (.kw "and") ∧ rest.head? ≠ some (.kw "or")

def Level.rank : Level → Nat
  | primary => 1
  | negation => 2
  | conjunction => 3
  | disjunction => 4

/-- A text that is read as a condition of a level, in front of what may follow. -/
def Reads (level : Level) (ts : List Token) (c : Cond) : Prop :=
  ∀ fuel rest, 4 * ts.length + level.rank ≤ fuel → Stops level rest →
    parse fuel level (ts ++ rest) = some (c, rest)

theorem exists_fuel {n m fuel : Nat} (h : n + (m + 1) ≤ fuel) : ∃ k, fuel = k + 1 ∧ n + m ≤ k := by
  cases fuel with
  | zero => omega
  | succ k => exact ⟨k, rfl, by omega⟩

theorem Reads.comparison {ts : List Token} {c : Comparison} (h : ReadsComparison ts c) :
    Reads .negation ts (.comparison c) := by
  obtain ⟨⟨x, rest', rfl⟩, hreads⟩ := h
  obtain ⟨t, ts, hx, hsymbol, hnot, -⟩ := x.tokens_eq
  intro fuel rest hfuel _
  obtain ⟨k, rfl, hk⟩ := exists_fuel hfuel
  obtain ⟨l, rfl, -⟩ := exists_fuel hk
  have hcomparison := hreads rest
  rw [hx, List.cons_append, List.cons_append] at hcomparison ⊢
  rw [parse, List.head?_cons, if_neg (fun h ↦ hnot (Option.some.inj h)), parse, List.head?_cons,
    if_neg (fun h ↦ hsymbol '(' (Option.some.inj h)), hcomparison]
  rfl

theorem Reads.paren {ts : List Token} {c : Cond} (h : Reads .disjunction ts c) :
    Reads .negation (.symbol '(' :: (ts ++ [.symbol ')'])) c := by
  intro fuel rest hfuel _
  obtain ⟨k, rfl, hk⟩ := exists_fuel hfuel
  obtain ⟨l, rfl, hl⟩ := exists_fuel hk
  rw [List.length_cons, List.length_append, List.length_singleton] at hl
  have hinner := h l (.symbol ')' :: rest) (by simp only [Level.rank]; omega)
    ⟨by simp [Token.kw], by simp [Token.kw]⟩
  rw [List.cons_append, List.append_assoc, List.singleton_append, parse,
    if_neg (by simp [Token.kw]), parse, List.head?_cons, if_pos rfl, List.tail_cons, hinner]
  rfl

theorem Reads.not {ts : List Token} {c : Cond} (h : Reads .negation ts c) :
    Reads .negation (.kw "not" :: ts) (.not c) := by
  intro fuel rest hfuel _
  obtain ⟨k, rfl, hk⟩ := exists_fuel hfuel
  rw [List.length_cons] at hk
  have hinner := h k rest (by simp only [Level.rank]; omega) trivial
  rw [List.cons_append, parse, List.head?_cons, if_pos rfl, List.tail_cons, hinner]
  rfl

/-- Conditions joined by `AND`. -/
def conjoin : Cond → List Cond → Cond
  | c, [] => c
  | c, d :: ds => .and c (conjoin d ds)

/-- Conditions joined by `OR`. -/
def disjoin : Cond → List Cond → Cond
  | c, [] => c
  | c, d :: ds => .or c (disjoin d ds)

theorem eval_conjoin {V : Type} (I : Interpretation V) (row : List Char → V) (params : Nat → V)
    (c : Cond) (ds : List Cond) : (conjoin c ds).eval I row params =
      Truth.all ((c :: ds).map (Cond.eval I row params)) := by
  induction ds generalizing c with
  | nil => exact (Truth.and_true _).symm
  | cons d ds ih => exact congrArg (Truth.and _) (ih d)

theorem eval_disjoin {V : Type} (I : Interpretation V) (row : List Char → V) (params : Nat → V)
    (c : Cond) (ds : List Cond) : (disjoin c ds).eval I row params =
      Truth.any ((c :: ds).map (Cond.eval I row params)) := by
  induction ds generalizing c with
  | nil => exact (Truth.or_false _).symm
  | cons d ds ih => exact congrArg (Truth.or _) (ih d)

/-- Texts with a word between them. -/
def joined (w : String) : List (List Token) → List Token := List.intercalate [.kw w]

theorem Reads.conjunction {t : List Token} {ts : List (List Token)} {c : Cond} {cs : List Cond}
    (h : Reads .negation t c) (hs : List.Forall₂ (Reads .negation) ts cs) :
    Reads .conjunction (joined "and" (t :: ts)) (conjoin c cs) := by
  induction hs generalizing t c with
  | nil =>
      intro fuel rest hfuel hstops
      obtain ⟨k, rfl, hk⟩ := exists_fuel hfuel
      rw [joined, List.intercalate_singleton] at hk ⊢
      rw [parse, h k rest hk trivial]
      exact if_neg hstops
  | @cons t' c' ts cs h' hs ih =>
      intro fuel rest hfuel hstops
      obtain ⟨k, rfl, hk⟩ := exists_fuel hfuel
      rw [joined, List.intercalate_cons_cons] at hk ⊢
      rw [List.length_append, List.length_append, List.length_singleton] at hk
      have hfirst := h k (.kw "and" :: (joined "and" (t' :: ts) ++ rest))
        (by simp only [Level.rank]; omega) trivial
      have hrest := ih h' k rest (by simp only [Level.rank, joined]; omega) hstops
      rw [List.append_assoc, List.append_assoc, List.singleton_append, parse]
      rw [joined] at hfirst hrest
      simp only [hfirst, Option.bind_eq_bind, Option.bind_some, List.head?_cons, if_pos,
        List.tail_cons, hrest]
      rfl

theorem Reads.disjunction {t : List Token} {ts : List (List Token)} {c : Cond} {cs : List Cond}
    (h : Reads .conjunction t c) (hs : List.Forall₂ (Reads .conjunction) ts cs) :
    Reads .disjunction (joined "or" (t :: ts)) (disjoin c cs) := by
  induction hs generalizing t c with
  | nil =>
      intro fuel rest hfuel hstops
      obtain ⟨k, rfl, hk⟩ := exists_fuel hfuel
      rw [joined, List.intercalate_singleton] at hk ⊢
      rw [parse, h k rest hk hstops.1]
      exact if_neg hstops.2
  | @cons t' c' ts cs h' hs ih =>
      intro fuel rest hfuel hstops
      obtain ⟨k, rfl, hk⟩ := exists_fuel hfuel
      rw [joined, List.intercalate_cons_cons] at hk ⊢
      rw [List.length_append, List.length_append, List.length_singleton] at hk
      have hfirst := h k (.kw "or" :: (joined "or" (t' :: ts) ++ rest))
        (by simp only [Level.rank]; omega) (by simp [Stops, Token.kw])
      have hrest := ih h' k rest (by simp only [Level.rank, joined]; omega) hstops
      rw [List.append_assoc, List.append_assoc, List.singleton_append, parse]
      rw [joined] at hfirst hrest
      simp only [hfirst, Option.bind_eq_bind, Option.bind_some, List.head?_cons, if_pos,
        List.tail_cons, hrest]
      rfl

end Foundation.SqlCondition
