import FrankenSnowflake.Catalog.Bindings
import FrankenSnowflake.Catalog.PlanParts

/-!
# The conditions of a plan

What the compiler writes for a filter is a list of pieces joined by `AND`: each is
parts of SQL that are read as one condition, whatever number its first parameter has.
-/

namespace FrankenSnowflake.Catalog

open Foundation SqlLexer SqlCondition

/-- A condition of a plan: its parts, and what they say if their parameters are numbered
from a number on. -/
structure Piece where
  parts : List SqlPart
  cond : Nat → Cond

def Piece.params (p : Piece) : Nat := placeholders p.parts

/-- The parameters of pieces, one behind the other. -/
def paramsOf (ps : List Piece) : Nat := (ps.map Piece.params).sum

@[simp] theorem paramsOf_nil : paramsOf [] = 0 := rfl

@[simp] theorem paramsOf_cons (p : Piece) (ps : List Piece) :
    paramsOf (p :: ps) = p.params + paramsOf ps := rfl

@[simp] theorem paramsOf_append (ps qs : List Piece) :
    paramsOf (ps ++ qs) = paramsOf ps + paramsOf qs := by
  rw [paramsOf, List.map_append, List.sum_append]
  rfl

/-- What pieces say one behind the other. -/
def numbered : Nat → List Piece → List Cond
  | _, [] => []
  | k, p :: ps => p.cond k :: numbered (k + p.params) ps

theorem numbered_append (k : Nat) (ps qs : List Piece) :
    numbered k (ps ++ qs) = numbered k ps ++ numbered (k + paramsOf ps) qs := by
  induction ps generalizing k with
  | nil => rfl
  | cons p ps ih =>
      rw [paramsOf_cons, ← Nat.add_assoc]
      exact congrArg _ (ih _)

/-- A piece is read as its condition, at a level of precedence. -/
structure Piece.Valid (level : Level) (p : Piece) : Prop where
  fragment : Fragment p.parts
  reads : ∀ k, Reads level (tokensOf k p.parts) (p.cond k)

/-! ## Joined pieces -/

/-- Parts with a keyword between them. -/
def wordJoined (w : Keyword) (pss : List (List SqlPart)) : List SqlPart :=
  (spacedWord w).intercalate pss

theorem partsText_intercalate (sep : List SqlPart) (pss : List (List SqlPart)) :
    partsText (sep.intercalate pss) = (partsText sep).intercalate (pss.map partsText) := by
  induction pss with
  | nil => rfl
  | cons ps pss ih =>
      cases pss with
      | nil => rw [List.intercalate_singleton, List.map_cons, List.map_nil,
          List.intercalate_singleton]
      | cons qs pss =>
          rw [List.intercalate_cons_cons, List.map_cons, List.map_cons,
            List.intercalate_cons_cons, partsText_append, partsText_append, ih, List.map_cons]

theorem placeholders_wordJoined (w : Keyword) (pss : List (List SqlPart)) :
    placeholders (wordJoined w pss) = (pss.map placeholders).sum := by
  induction pss with
  | nil => rfl
  | cons ps pss ih =>
      cases pss with
      | nil => rw [wordJoined, List.intercalate_singleton, List.map_cons, List.map_nil,
          List.sum_singleton]
      | cons qs pss =>
          rw [wordJoined, List.intercalate_cons_cons, placeholders_append, placeholders_append,
            List.map_cons, List.sum_cons, ← ih, wordJoined]
          rfl

/-- The tokens of lists of parts, one behind the other. -/
def tokensEach : Nat → List (List SqlPart) → List (List Token)
  | _, [] => []
  | k, ps :: pss => tokensOf k ps :: tokensEach (k + placeholders ps) pss

theorem tokensOf_wordJoined (k : Nat) (w : Keyword) (pss : List (List SqlPart)) :
    tokensOf k (wordJoined w pss) = joined w.lower (tokensEach k pss) := by
  induction pss generalizing k with
  | nil => rfl
  | cons ps pss ih =>
      cases pss with
      | nil => rw [wordJoined, List.intercalate_singleton]
               exact (List.intercalate_singleton ..).symm
      | cons qs pss =>
          have hrest := ih (k + placeholders ps)
          rw [wordJoined] at hrest ⊢
          rw [List.intercalate_cons_cons, List.append_assoc, tokensOf_append, tokensOf_append]
          show tokensOf k ps ++ ([.kw w.lower] ++ tokensOf (k + placeholders ps) _) =
            [.kw w.lower].intercalate (_ :: _ :: _)
          rw [hrest, joined, tokensEach, List.intercalate_cons_cons, List.append_assoc]

theorem reads_tokensEach {level : Level} {k : Nat} {ps : List Piece}
    (h : ∀ p ∈ ps, p.Valid level) :
    List.Forall₂ (Reads level) (tokensEach k (ps.map Piece.parts)) (numbered k ps) := by
  induction ps generalizing k with
  | nil => exact .nil
  | cons p ps ih =>
      obtain ⟨hp, hps⟩ := List.forall_mem_cons.mp h
      exact .cons (hp.reads k) (ih hps)

namespace Piece

variable {level : Level} {p : Piece} {ps : List Piece}

/-- All of these pieces. -/
def allOf (p : Piece) (ps : List Piece) : Piece where
  parts := wordJoined .and ((p :: ps).map parts)
  cond k := conjoin (p.cond k) (numbered (k + p.params) ps)

/-- One of these pieces. -/
def anyOf (p : Piece) (ps : List Piece) : Piece where
  parts := wordJoined .or ((p :: ps).map parts)
  cond k := disjoin (p.cond k) (numbered (k + p.params) ps)

def paren (p : Piece) : Piece where
  parts := .mark .open :: (p.parts ++ [.mark .close])
  cond := p.cond

def not (p : Piece) : Piece where
  parts := .keyword .not :: .blank :: p.paren.parts
  cond k := .not (p.cond k)

theorem fragment_wordJoined (w : Keyword) (h : ∀ q ∈ p :: ps, q.Valid level) :
    Fragment (wordJoined w ((p :: ps).map parts)) := by
  refine .intercalate (bridge_spacedWord w) (List.cons_ne_nil _ _) fun qs hqs ↦ ?_
  obtain ⟨q, hq, rfl⟩ := List.mem_map.mp hqs
  exact (h q hq).fragment

theorem valid_allOf (h : ∀ q ∈ p :: ps, q.Valid .negation) : (allOf p ps).Valid .conjunction where
  fragment := fragment_wordJoined .and h
  reads k := by
    obtain ⟨hp, hps⟩ := List.forall_mem_cons.mp h
    rw [allOf, tokensOf_wordJoined]
    exact .conjunction (hp.reads k) (reads_tokensEach hps)

theorem valid_anyOf (h : ∀ q ∈ p :: ps, q.Valid .conjunction) : (anyOf p ps).Valid .disjunction where
  fragment := fragment_wordJoined .or h
  reads k := by
    obtain ⟨hp, hps⟩ := List.forall_mem_cons.mp h
    rw [anyOf, tokensOf_wordJoined]
    exact .disjunction (hp.reads k) (reads_tokensEach hps)

theorem Valid.disjunction (h : p.Valid .conjunction) : p.Valid .disjunction where
  fragment := h.fragment
  reads k := by
    have hone := Reads.disjunction (h.reads k) .nil
    rwa [joined, List.intercalate_singleton] at hone

theorem Valid.paren (h : p.Valid .disjunction) : p.paren.Valid .negation where
  fragment := h.fragment.paren
  reads k := by
    have htokens : tokensOf k p.paren.parts =
        .symbol '(' :: (tokensOf k p.parts ++ [.symbol ')']) := by
      show Token.symbol '(' :: tokensOf k (p.parts ++ [.mark .close]) = _
      rw [tokensOf_append]
      rfl
    rw [htokens]
    exact .paren (h.reads k)

theorem Valid.not (h : p.Valid .disjunction) : p.not.Valid .negation where
  fragment := by
    have hparen := h.paren.fragment
    refine ⟨?_, List.cons_ne_nil _ _, fun _ hq ↦ Option.some.inj hq ▸ rfl, fun q hq ↦ ?_⟩
    · refine List.isChain_cons_cons.mpr ⟨rfl, List.isChain_cons.mpr ⟨fun q hq ↦ ?_, hparen.chain⟩⟩
      exact SqlPart.blank_linked (hparen.starts q hq)
    · exact hparen.stops q hq
  reads k := .not (h.paren.reads k)

@[simp] theorem params_paren (p : Piece) : p.paren.params = p.params := by
  show placeholders (SqlPart.mark .open :: (p.parts ++ [.mark .close])) = placeholders p.parts
  simp [placeholders]

@[simp] theorem params_not (p : Piece) : p.not.params = p.params := by
  have hparen := params_paren p
  show placeholders (SqlPart.keyword .not :: .blank :: p.paren.parts) = p.params
  rw [← hparen]
  simp [placeholders, params]

@[simp] theorem params_allOf (p : Piece) (ps : List Piece) :
    (allOf p ps).params = p.params + paramsOf ps := by
  rw [params, allOf, placeholders_wordJoined, List.map_map]
  rfl

@[simp] theorem params_anyOf (p : Piece) (ps : List Piece) :
    (anyOf p ps).params = p.params + paramsOf ps := by
  rw [params, anyOf, placeholders_wordJoined, List.map_map]
  rfl

end Piece

/-! ## Comparisons -/

/-- The marks of a comparison. -/
def markParts (symbol : String) : List SqlPart :=
  symbol.toList.filterMap fun c ↦
    ([Mark.equals, .less, .greater, .bang].find? (·.char = c)).map SqlPart.mark

def placeholderList (count : Nat) : List SqlPart :=
  commaSpace.intercalate (List.replicate count [.placeholder])

/-- What the compiler writes for an operator on a column. -/
def SqlOperator.piece (x : Text) (count : Nat) : SqlOperator → Piece
  | compare symbol =>
      { parts := .identifier x :: .blank :: (markParts symbol ++ [.blank, .placeholder])
        cond k := .comparison (.compare symbol (.atom (.column x)) (.atom (.param k))) }
  | between =>
      { parts := [.identifier x, .blank, .keyword .between, .blank, .placeholder, .blank,
          .keyword .and, .blank, .placeholder]
        cond k := .comparison
          (.between (.atom (.column x)) (.atom (.param k)) (.atom (.param (k + 1)))) }
  | «in» =>
      { parts := .identifier x ::
          (spacedWord .in ++ .mark .open :: (placeholderList count ++ [.mark .close]))
        cond k := .comparison
          (.isIn (.atom (.column x)) ((List.range' k count).map fun i ↦ .atom (.param i))) }
  | isNull =>
      { parts := [.identifier x, .blank, .keyword .is, .blank, .keyword .null]
        cond _ := .comparison (.isNull (.atom (.column x))) }
  | isNotNull =>
      { parts := [.identifier x, .blank, .keyword .is, .blank, .keyword .not, .blank,
          .keyword .null]
        cond _ := .comparison (.isNotNull (.atom (.column x))) }
  | contains =>
      { parts := [.keyword .position, .mark .open, .placeholder, .blank, .keyword .in, .blank,
          .identifier x, .mark .close, .blank, .mark .greater, .blank, .zero]
        cond k := .comparison
          (.compare ">" (.position (.param k) (.column x)) (.atom (.number ['0']))) }

/-- The operators of the compiler. -/
def SqlOperator.IsKnown (op : SqlOperator) : Prop := ∃ name, sqlOperator name = some op

theorem SqlOperator.IsKnown.mem {symbol : String} (h : IsKnown (.compare symbol)) :
    symbol ∈ comparisonSymbols := by
  obtain ⟨name, hname⟩ := h
  obtain ⟨entry, hentry, hop⟩ := Option.map_eq_some_iff.mp hname
  have hmem := List.mem_of_find?_eq_some hentry
  simp only [sqlOperators, List.mem_cons, List.not_mem_nil, or_false] at hmem
  rcases hmem with rfl | rfl | rfl | rfl | rfl | rfl | rfl | rfl | rfl | rfl | rfl <;> cases hop <;>
    decide

theorem tokensOf_placeholderList (k count : Nat) :
    tokensOf k (placeholderList count) =
      listTokens ((List.range' k count).map fun i ↦ .atom (.param i)) := by
  rcases count with _ | count
  · rfl
  · induction count generalizing k with
    | zero => rfl
    | succ count ih =>
        have hrest := ih (k + 1)
        rw [placeholderList, List.replicate_succ, List.replicate_succ, List.intercalate_cons_cons]
        rw [placeholderList, List.replicate_succ] at hrest
        show Token.param k :: .symbol ',' :: tokensOf (k + 1)
          (commaSpace.intercalate ([.placeholder] :: List.replicate count [.placeholder])) = _
        rw [hrest]
        rfl

theorem fragment_placeholderList (count : Nat) :
    Fragment (.mark .open :: (placeholderList count ++ [.mark .close])) := by
  rcases count with _ | count
  · exact fragment_of_isFragment rfl
  · apply Fragment.paren
    refine .intercalate bridge_commaSpace (by simp) fun ps hps ↦ ?_
    rw [List.eq_of_mem_replicate hps]
    exact .singleton rfl

theorem SqlOperator.fragment_piece {op : SqlOperator} (h : op.IsKnown) (x : Text) (count : Nat) :
    Fragment (op.piece x count).parts := by
  cases op with
  | compare symbol =>
      have hmem := h.mem
      simp only [comparisonSymbols, List.mem_cons, List.not_mem_nil, or_false] at hmem
      rcases hmem with rfl | rfl | rfl | rfl | rfl | rfl <;>
        exact fragment_of_isFragment rfl
  | between | isNull | isNotNull | contains =>
      exact fragment_of_isFragment rfl
  | «in» =>
      exact (Fragment.singleton rfl).append (bridge_spacedWord .in)
        (fragment_placeholderList count)

theorem SqlOperator.valid_piece {op : SqlOperator} (h : op.IsKnown) (x : Text) (count : Nat) :
    (op.piece x count).Valid .negation where
  fragment := op.fragment_piece h x count
  reads k := by
    cases op with
    | compare symbol =>
        have hread := Reads.comparison
          (readsComparison_compare h.mem (.atom (.column x)) (.atom (.param k)))
        have hmem := h.mem
        simp only [comparisonSymbols, List.mem_cons, List.not_mem_nil, or_false] at hmem
        rcases hmem with rfl | rfl | rfl | rfl | rfl | rfl <;> exact hread
    | between =>
        exact .comparison (readsComparison_between (.atom (.column x)) (.atom (.param k))
          (.atom (.param (k + 1))))
    | isNull => exact .comparison (readsComparison_isNull (.atom (.column x)))
    | isNotNull => exact .comparison (readsComparison_isNotNull (.atom (.column x)))
    | contains =>
        have hmem : ">" ∈ comparisonSymbols := by decide
        exact .comparison (readsComparison_compare hmem (.position (.param k) (.column x))
          (.atom (.number ['0'])))
    | «in» =>
        have htokens : tokensOf k (SqlOperator.piece x count .in).parts =
            Operand.tokens (.atom (.column x)) ++ .kw "in" :: .symbol '(' ::
              (listTokens ((List.range' k count).map fun i ↦ .atom (.param i)) ++
                [.symbol ')']) := by
          show Token.column x :: .kw "in" :: .symbol '(' ::
            tokensOf k (placeholderList count ++ [.mark .close]) = _
          rw [tokensOf_append, tokensOf_placeholderList]
          rfl
        rw [htokens]
        exact .comparison (readsComparison_isIn _ _)

theorem placeholders_placeholderList (count : Nat) :
    placeholders (placeholderList count) = count := by
  rcases count with _ | count
  · rfl
  · induction count with
    | zero => rfl
    | succ count ih =>
        rw [placeholderList, List.replicate_succ] at ih
        rw [placeholderList, List.replicate_succ, List.replicate_succ, List.intercalate_cons_cons,
          placeholders_append, placeholders_append, ih]
        exact Nat.add_comm 1 (count + 1)

theorem partsText_placeholderList (b : Binder) (dtype : DtypeClass) (values : List Text) :
    join ", ".toList (pushBindings b dtype values).1 =
      partsText (placeholderList values.length) := by
  rw [pushBindings_fst, placeholderList, partsText_intercalate, List.map_replicate, List.map_const']
  rfl

theorem pushBindings_nextBinding (b : Binder) (dtype : DtypeClass) (values : List Text) :
    (pushBindings b dtype values).2.nextBinding = b.nextBinding + values.length := by
  induction values generalizing b with
  | nil => rfl
  | cons value values ih =>
      have hrest := ih (pushBinding b dtype value).2
      rw [List.length_cons, Nat.add_comm values.length 1, ← Nat.add_assoc]
      exact hrest

theorem partsText_markParts {symbol : String} (h : symbol ∈ comparisonSymbols) :
    partsText (markParts symbol) = symbol.toList := by
  simp only [comparisonSymbols, List.mem_cons, List.not_mem_nil, or_false] at h
  rcases h with rfl | rfl | rfl | rfl | rfl | rfl <;> rfl

theorem partsText_compare {symbol : String} (h : symbol ∈ comparisonSymbols) (x : Text) :
    quoteIdentifier x ++ " ".toList ++ symbol.toList ++ " ".toList ++ "?".toList =
      partsText (.identifier x :: .blank :: (markParts symbol ++ [.blank, .placeholder])) := by
  simp only [partsText_cons, partsText_append, partsText_markParts h, List.append_assoc]
  rfl

theorem compileOperator_compare {symbol : String} (h : symbol ∈ comparisonSymbols)
    (column : ColumnCatalogEntry) (values : List Text) (b : Binder) :
    (compileOperator column values b (.compare symbol)).1 =
      partsText (.identifier column.column :: .blank ::
        (markParts symbol ++ [.blank, .placeholder])) := by
  rw [← partsText_compare h]
  rfl

/-- The text of an operator is the text of its piece. -/
theorem compileOperator_text {op : SqlOperator} (h : op.IsKnown) (column : ColumnCatalogEntry)
    (values : List Text) (b : Binder) :
    (compileOperator column values b op).1 =
      partsText (op.piece column.column values.length).parts := by
  cases op with
  | compare symbol =>
      exact compileOperator_compare h.mem column values b
  | between =>
      show quoteIdentifier column.column ++ " BETWEEN ".toList ++ "?".toList ++ " AND ".toList ++
        "?".toList = _
      rw [List.append_assoc, List.append_assoc, List.append_assoc]
      rfl
  | isNull | isNotNull => rfl
  | contains =>
      show "POSITION(".toList ++ "?".toList ++ " IN ".toList ++ quoteIdentifier column.column ++
        ") > 0".toList = _
      rw [List.append_assoc, List.append_assoc, List.append_assoc]
      rfl
  | «in» =>
      show quoteIdentifier column.column ++ " IN (".toList ++
        join ", ".toList (pushBindings b column.dtypeClass values).1 ++ ")".toList = _
      rw [List.append_assoc, List.append_assoc, partsText_placeholderList, SqlOperator.piece,
        partsText_cons, partsText_append, partsText_cons, partsText_append]
      rfl

theorem compileOperator_nextBinding (column : ColumnCatalogEntry) (values : List Text)
    (b : Binder) {op : SqlOperator} (h : op.IsKnown) :
    (compileOperator column values b op).2.nextBinding =
      b.nextBinding + (op.piece column.column values.length).params := by
  cases op with
  | compare symbol =>
      have hsymbol := h.mem
      simp only [comparisonSymbols, List.mem_cons, List.not_mem_nil, or_false] at hsymbol
      rcases hsymbol with rfl | rfl | rfl | rfl | rfl | rfl <;> rfl
  | between | isNull | isNotNull | contains => rfl
  | «in» =>
      have hparams : (SqlOperator.piece column.column values.length .in).params = values.length := by
        show placeholders (SqlPart.identifier column.column :: (spacedWord .in ++
          SqlPart.mark .open :: (placeholderList values.length ++ [SqlPart.mark .close]))) = _
        have hlist := placeholders_placeholderList values.length
        rw [placeholders] at hlist
        simp [placeholders, spacedWord, hlist]
      rw [hparams]
      exact pushBindings_nextBinding b column.dtypeClass values

end FrankenSnowflake.Catalog
