import FrankenSnowflake.Catalog.PlanBindings
import FrankenSnowflake.Core.SqlGuards

/-!
# What a plan contains

Whatever the names and the values of a request are, the SQL of its plan is one read:
its identifiers are the names of the dataset and its columns, its one literal is the
time it is read at, and all other words are the planner's.
-/

namespace FrankenSnowflake.Catalog

open Foundation SqlLexer SqlCondition

/-! ## What is collected from parts -/

/-- A part that only joins other parts. -/
def SqlPart.joins : SqlPart → Bool
  | blank | gap | keyword _ | mark _ => true
  | placeholder | zero | identifier _ | literal _ => false

def SqlPart.identifier? : SqlPart → Option Text
  | identifier x => some x
  | _ => none

def SqlPart.literal? : SqlPart → Option Text
  | literal x => some x
  | _ => none

section Collect

variable {α : Type} (f : SqlPart → Option α)

/-- What pieces hold, one behind the other. -/
def collect (ps : List Piece) : List α := ps.flatMap fun p ↦ p.parts.filterMap f

variable {f}

theorem filterMap_of_joins (hf : ∀ p, p.joins → f p = none) {ps : List SqlPart}
    (h : ∀ p ∈ ps, p.joins) : ps.filterMap f = [] :=
  List.filterMap_eq_nil_iff.mpr fun p hp ↦ hf p (h p hp)

theorem filterMap_intercalate (hf : ∀ p, p.joins → f p = none) {sep : List SqlPart}
    (hsep : ∀ p ∈ sep, p.joins) (pss : List (List SqlPart)) :
    (sep.intercalate pss).filterMap f = pss.flatMap fun ps ↦ ps.filterMap f := by
  induction pss with
  | nil => rfl
  | cons ps pss ih =>
      cases pss with
      | nil => rw [List.intercalate_singleton, List.flatMap_singleton]
      | cons qs pss =>
          rw [List.intercalate_cons_cons, List.filterMap_append, List.filterMap_append, ih,
            filterMap_of_joins hf hsep, List.append_nil]
          rfl

theorem joins_spacedWord (w : Keyword) : ∀ p ∈ spacedWord w, p.joins :=
  List.all_eq_true.mp rfl

theorem collect_cons (p : Piece) (ps : List Piece) :
    collect f (p :: ps) = p.parts.filterMap f ++ collect f ps := rfl

theorem collect_append (ps qs : List Piece) :
    collect f (ps ++ qs) = collect f ps ++ collect f qs := List.flatMap_append

variable (hf : ∀ p, p.joins → f p = none)

include hf

theorem filterMap_wordJoined (w : Keyword) (ps : List Piece) :
    (wordJoined w (ps.map Piece.parts)).filterMap f = collect f ps := by
  rw [wordJoined, filterMap_intercalate hf (joins_spacedWord w), collect, List.flatMap_map]

theorem filterMap_paren (p : Piece) : p.paren.parts.filterMap f = p.parts.filterMap f := by
  have hopen : f (.mark .open) = none := hf _ rfl
  have hclose : f (.mark .close) = none := hf _ rfl
  show (SqlPart.mark .open :: (p.parts ++ [.mark .close])).filterMap f = _
  rw [List.filterMap_cons_none hopen, List.filterMap_append, List.filterMap_cons_none hclose,
    List.filterMap_nil, List.append_nil]

theorem filterMap_not (p : Piece) : p.not.parts.filterMap f = p.parts.filterMap f := by
  have hnot : f (.keyword .not) = none := hf _ rfl
  have hblank : f .blank = none := hf _ rfl
  show (SqlPart.keyword .not :: .blank :: p.paren.parts).filterMap f = _
  rw [List.filterMap_cons_none hnot, List.filterMap_cons_none hblank, filterMap_paren hf]

theorem collect_allPieces (ps : List Piece) : collect f (allPieces ps).toList = collect f ps := by
  cases ps with
  | nil => rfl
  | cons p ps =>
      show (wordJoined .and ((p :: ps).map Piece.parts)).filterMap f ++ [] = _
      rw [List.append_nil, filterMap_wordJoined hf]

omit hf in
theorem collect_map {g : Piece → Piece} (hg : ∀ p, (g p).parts.filterMap f = p.parts.filterMap f)
    (ps : List Piece) : collect f (ps.map g) = collect f ps := by
  rw [collect, List.flatMap_map, collect]
  exact congrArg (List.flatMap · ps) (funext hg)

theorem collect_filterMap (groups : List (List Piece)) :
    collect f (groups.filterMap allPieces) = collect f groups.flatten := by
  induction groups with
  | nil => rfl
  | cons group groups ih =>
      have hgroup := collect_allPieces hf group
      rw [List.flatten_cons, collect_append, ← ih, ← hgroup]
      cases group with
      | nil => rfl
      | cons p ps => exact collect_append [Piece.allOf p ps] _

theorem collect_groupAll (groups : List (List Piece)) :
    collect f (groupAll groups) = collect f groups.flatten := by
  rw [groupAll, collect_map (filterMap_paren hf), collect_allPieces hf]

theorem collect_groupAny (groups : List (List Piece)) :
    collect f (groupAny groups) = collect f groups.flatten := by
  rw [groupAny, collect_map (filterMap_paren hf), ← collect_filterMap hf, anyPieces]
  cases groups.filterMap allPieces with
  | nil => rfl
  | cons p ps =>
      show (wordJoined .or ((p :: ps).map Piece.parts)).filterMap f ++ [] = _
      rw [List.append_nil, filterMap_wordJoined hf]

end Collect

/-! ## The columns of a filter -/

theorem identifier?_of_joins : ∀ p : SqlPart, p.joins → p.identifier? = none := by
  intro p hp
  cases p with
  | identifier x => cases hp
  | _ => rfl

theorem literal?_of_joins : ∀ p : SqlPart, p.joins → p.literal? = none := by
  intro p hp
  cases p with
  | literal x => cases hp
  | _ => rfl

theorem filterMap_placeholderList {α : Type} {f : SqlPart → Option α}
    (hf : ∀ p, p.joins → f p = none) (hplaceholder : f .placeholder = none) (count : Nat) :
    (placeholderList count).filterMap f = [] := by
  rw [placeholderList, filterMap_intercalate hf (List.all_eq_true.mp rfl), List.flatMap_eq_nil_iff]
  intro ps hps
  rw [List.eq_of_mem_replicate hps, List.filterMap_cons_none hplaceholder, List.filterMap_nil]

/-- An operator names its column, and holds no literal. -/
theorem SqlOperator.filterMap_piece {op : SqlOperator} (h : op.IsKnown) (x : Text) (count : Nat) :
    (op.piece x count).parts.filterMap SqlPart.identifier? = [x] ∧
      (op.piece x count).parts.filterMap SqlPart.literal? = [] := by
  cases op with
  | compare symbol =>
      have hmem := h.mem
      simp only [comparisonSymbols, List.mem_cons, List.not_mem_nil, or_false] at hmem
      rcases hmem with rfl | rfl | rfl | rfl | rfl | rfl <;> exact ⟨rfl, rfl⟩
  | between | isNull | isNotNull | contains => exact ⟨rfl, rfl⟩
  | «in» =>
      have hparts : (SqlOperator.piece x count .in).parts = .identifier x ::
          (spacedWord .in ++ .mark .open :: (placeholderList count ++ [.mark .close])) := rfl
      rw [hparts]
      constructor
      · show x :: (placeholderList count ++ [SqlPart.mark .close]).filterMap SqlPart.identifier? = _
        rw [List.filterMap_append, filterMap_placeholderList identifier?_of_joins rfl]
        rfl
      · show (placeholderList count ++ [SqlPart.mark .close]).filterMap SqlPart.literal? = _
        rw [List.filterMap_append, filterMap_placeholderList literal?_of_joins rfl]
        rfl

section Tree

variable (find : Lookup) (columns : List ColumnCatalogEntry)

mutual

/-- The columns that the leaves of a tree name. -/
def treeColumns : PredicateAst → List Text
  | .compound and or not => treesColumns and ++ treesColumns or ++ notColumns not
  | .leaf leaf => (find leaf.column columns).toList.map (·.column)

def treesColumns : List PredicateAst → List Text
  | [] => []
  | p :: ps => treeColumns p ++ treesColumns ps

def notColumns : Option PredicateAst → List Text
  | none => []
  | some p => treeColumns p

end

variable {find columns} {R : Rendering}

theorem collect_leafPieces {leaf : LeafPredicate} {b : Binder} {o : CompiledPredicate × Binder}
    (h : compileLeaf R find columns leaf b = .ok o) :
    collect SqlPart.identifier? (leafPieces R find columns leaf) =
      (find leaf.column columns).toList.map (·.column) := by
  unfold compileLeaf at h
  unfold leafPieces
  cases hcolumn : find leaf.column columns with
  | none => simp [hcolumn] at h
  | some column =>
      cases hop : sqlOperator leaf.op with
      | none => simp [hcolumn, hop] at h
      | some op =>
          exact (List.append_nil _).trans (op.filterMap_piece ⟨leaf.op, hop⟩ _ _).1

mutual

theorem collect_piecesOf : ∀ (p : PredicateAst) {b : Binder}
    {o : Option CompiledPredicate × Binder}, compilePredicate R find columns p b = .ok o →
      collect SqlPart.identifier? (piecesOf R find columns p) = treeColumns find columns p
  | .compound and or not, b, o, h => by
      unfold compilePredicate at h
      obtain ⟨a₁, hand, h⟩ := bind_eq_ok_iff.mp h
      obtain ⟨a₂, hor, h⟩ := bind_eq_ok_iff.mp h
      obtain ⟨a₃, hnot, -⟩ := bind_eq_ok_iff.mp h
      rw [piecesOf, collect_append, collect_append, collect_groupAll identifier?_of_joins,
        collect_groupAny identifier?_of_joins, collect_groupsOf and hand, collect_groupsOf or hor,
        collect_notPieces not hnot, treeColumns]
  | .leaf leaf, b, o, h => by
      unfold compilePredicate at h
      obtain ⟨a, hleaf, -⟩ := bind_eq_ok_iff.mp h
      rw [piecesOf, treeColumns]
      exact collect_leafPieces hleaf

theorem collect_groupsOf : ∀ (ps : List PredicateAst) {b : Binder}
    {o : List CompiledPredicate × Binder}, compileMany R find columns ps b = .ok o →
      collect SqlPart.identifier? (groupsOf R find columns ps).flatten = treesColumns find columns ps
  | [], b, o, h => by
      rw [groupsOf, treesColumns]
      rfl
  | p :: ps, b, o, h => by
      unfold compileMany at h
      obtain ⟨a₁, hp, h⟩ := bind_eq_ok_iff.mp h
      obtain ⟨a₂, hps, -⟩ := bind_eq_ok_iff.mp h
      rw [groupsOf, treesColumns, List.flatten_cons, collect_append, collect_piecesOf p hp,
        collect_groupsOf ps hps]

theorem collect_notPieces : ∀ (p : Option PredicateAst) {b : Binder}
    {o : List CompiledPredicate × Binder}, compileNot R find columns p b = .ok o →
      collect SqlPart.identifier? (notPieces R find columns p) = notColumns find columns p
  | none, b, o, h => by
      rw [notPieces, notColumns]
      rfl
  | some p, b, o, h => by
      unfold compileNot at h
      obtain ⟨a, hp, -⟩ := bind_eq_ok_iff.mp h
      rw [notPieces, notColumns, collect_map (filterMap_not identifier?_of_joins),
        collect_allPieces identifier?_of_joins, collect_piecesOf p hp]

end

mutual

/-- A filter has no literals. -/
theorem literals_piecesOf : ∀ p : PredicateAst,
    collect SqlPart.literal? (piecesOf R find columns p) = []
  | .compound and or not => by
      rw [piecesOf, collect_append, collect_append, collect_groupAll literal?_of_joins,
        collect_groupAny literal?_of_joins, literals_groupsOf and, literals_groupsOf or,
        literals_notPieces not]
      rfl
  | .leaf leaf => by
      rw [piecesOf, leafPieces]
      cases find leaf.column columns with
      | none => rfl
      | some column =>
          cases hop : sqlOperator leaf.op with
          | none => rfl
          | some op => exact (List.append_nil _).trans (op.filterMap_piece ⟨leaf.op, hop⟩ _ _).2

theorem literals_groupsOf : ∀ ps : List PredicateAst,
    collect SqlPart.literal? (groupsOf R find columns ps).flatten = []
  | [] => by
      rw [groupsOf]
      rfl
  | p :: ps => by
      rw [groupsOf, List.flatten_cons, collect_append, literals_piecesOf p, literals_groupsOf ps]
      rfl

theorem literals_notPieces : ∀ p : Option PredicateAst,
    collect SqlPart.literal? (notPieces R find columns p) = []
  | none => by
      rw [notPieces]
      rfl
  | some p => by
      rw [notPieces, collect_map (filterMap_not literal?_of_joins),
        collect_allPieces literal?_of_joins, literals_piecesOf p]

end

end Tree

/-! ## What a text contains -/

/-- The names of the quoted identifiers of a text, in order. -/
def identifiersOf (sql : Text) : List Text :=
  (significantContent sql).filterMap fun t ↦
    if t.1 = .quotedIdentifier then some (undouble (unquoted t.2)) else none

/-- The values of the string constants of a text, in order. -/
def constantsOf (sql : Text) : List Text :=
  (significantContent sql).filterMap fun t ↦
    if t.1 = .stringLiteral then some (unescape (unquoted t.2)) else none

/-- The words of a plan, in lower case. -/
def planWords : List Text :=
  ["select", "from", "at", "timestamp", "timestamp_tz", "where", "and", "or", "not", "between",
    "in", "is", "null", "position", "limit"].map String.toList

/-- A text is one read, and holds these names and constants and no others. -/
structure Contained (sql : Text) (identifiers constants : List Text) : Prop where
  reliable : (lex sql).isUnreliable = false
  single : (lex sql).statementCount = 1
  read : isSideEffectFreeRead sql
  identifiers : identifiersOf sql = identifiers
  constants : constantsOf sql = constants
  words : ∀ word ∈ (lex sql).words, word ∈ planWords
  kinds : ∀ t ∈ (lex sql).tokens, t.kind ∉ [.comment, .dollarString, .var, .semicolon]

section PartsText

variable {ps : List SqlPart}

theorem significantContent_partsText (h : ps.IsChain SqlPart.Linked) :
    significantContent (partsText ps) = contentOf ps := by
  rw [significantContent_lexemes, lexemes_partsText h]
  rfl

theorem mem_placed {t : SqlToken} {start : Nat} {ls : List Lexeme} (h : t ∈ placed start ls) :
    ∃ l ∈ ls, t.kind = l.kind ∧ t.text = l.text := by
  induction ls generalizing start with
  | nil => cases h
  | cons l ls ih =>
      rcases List.mem_cons.mp h with rfl | h
      · exact ⟨l, List.mem_cons_self, rfl, rfl⟩
      · obtain ⟨m, hm, heq⟩ := ih h
        exact ⟨m, List.mem_cons_of_mem _ hm, heq⟩

/-- The tokens of linked parts are the parts. -/
theorem mem_tokens_partsText (h : ps.IsChain SqlPart.Linked) {t : SqlToken}
    (ht : t ∈ (lex (partsText ps)).tokens) :
    ∃ p ∈ ps, t.kind = p.lexeme.kind ∧ t.text = p.lexeme.text := by
  rw [lex_eq, lexemes_partsText h] at ht
  obtain ⟨l, hl, heq⟩ := mem_placed ht
  obtain ⟨p, hp, rfl⟩ := List.mem_map.mp hl
  exact ⟨p, hp, heq⟩

theorem isUnreliable_partsText (h : ps.IsChain SqlPart.Linked) :
    (lex (partsText ps)).isUnreliable = false := by
  rw [← reliable_lexemes_iff, lexemes_partsText h]
  exact (sound_of_chain h).reliable

theorem kind_of_mem_tokens (h : ps.IsChain SqlPart.Linked) {t : SqlToken}
    (ht : t ∈ (lex (partsText ps)).tokens) :
    t.kind ∉ [.comment, .dollarString, .var, .semicolon] := by
  obtain ⟨p, -, hkind, -⟩ := mem_tokens_partsText h ht
  rw [hkind]
  cases p <;> simp [SqlPart.lexeme]

theorem word_of_mem_tokens (h : ps.IsChain SqlPart.Linked) {t : SqlToken}
    (ht : t ∈ (lex (partsText ps)).tokens) {word : Text} (hword : t.word? = some word) :
    word ∈ planWords := by
  obtain ⟨p, -, hkind, htext⟩ := mem_tokens_partsText h ht
  obtain ⟨hkind', rfl⟩ := word?_eq_some.mp hword
  rw [hkind'] at hkind
  rw [htext]
  cases p with
  | keyword w =>
      show w.text.toList.map Char.toLower ∈ planWords
      rw [w.map_toLower]
      cases w <;> decide
  | _ => cases hkind

theorem isSideEffectWord_planWords : ∀ word ∈ planWords, isSideEffectWord word = false := by
  decide

theorem identifiersOf_partsText (h : ps.IsChain SqlPart.Linked) :
    identifiersOf (partsText ps) = ps.filterMap SqlPart.identifier? := by
  rw [identifiersOf, significantContent_partsText h]
  clear h
  induction ps with
  | nil => rfl
  | cons p ps ih =>
      cases p with
      | identifier x =>
          have hname : undouble (unquoted (quoteIdentifier x)) = x := undouble_quoteIdentifier x
          show undouble (unquoted (quoteIdentifier x)) :: (contentOf ps).filterMap _ = _
          rw [hname, ih]
          rfl
      | _ => exact ih

theorem constantsOf_partsText (h : ps.IsChain SqlPart.Linked) :
    constantsOf (partsText ps) = ps.filterMap SqlPart.literal? := by
  rw [constantsOf, significantContent_partsText h]
  clear h
  induction ps with
  | nil => rfl
  | cons p ps ih =>
      cases p with
      | literal x =>
          have hvalue : unescape (unquoted (quoteLiteral x)) = x := unescape_quoteLiteral x
          show unescape (unquoted (quoteLiteral x)) :: (contentOf ps).filterMap _ = _
          rw [hvalue, ih]
          rfl
      | _ => exact ih

/-- Linked parts behind `SELECT` are one statement, and it is a read. -/
theorem read_partsText (h : (SqlPart.keyword .select :: ps).IsChain SqlPart.Linked) :
    (lex (partsText (.keyword .select :: ps))).statementCount = 1 ∧
      isSideEffectFreeRead (partsText (.keyword .select :: ps)) := by
  have hcontent : (lex (partsText (.keyword .select :: ps))).significant.map SqlToken.content =
      (.word, "SELECT".toList) :: contentOf ps := significantContent_partsText h
  obtain ⟨t, ts, hsignificant, ht, -⟩ := List.map_eq_cons_iff.mp hcontent
  have hmem : ∀ u ∈ t :: ts, u ∈ (lex (partsText (.keyword .select :: ps))).tokens := by
    intro u hu
    rw [← hsignificant] at hu
    exact (List.mem_filter.mp hu).1
  have hplain : ∀ u ∈ t :: ts, u.isTrivia = false := by
    intro u hu
    rw [← hsignificant] at hu
    exact isTrivia_of_mem_significant hu
  have hopen : ∀ u ∈ t :: ts, u.kind ≠ .semicolon := by
    intro u hu hkind
    have hother := kind_of_mem_tokens h (hmem u hu)
    rw [hkind] at hother
    exact hother (by decide)
  have hstatements : statementTokens [] (lex (partsText (.keyword .select :: ps))).significant =
      [t :: ts] := by
    have happend := statementTokens_append hopen [] []
    rw [List.append_nil, List.nil_append] at happend
    rw [hsignificant, happend]
    rfl
  have hkind : t.kind = .word := congrArg Prod.fst ht
  have htext : t.text = "SELECT".toList := congrArg Prod.snd ht
  have hpure : ∀ st ∈ splitStatements (partsText (.keyword .select :: ps)),
      isReadStatement (lex st) ∧ readSideEffect (lex st) = none := by
    refine (forall_splitStatements (P := fun l ↦ isReadStatement l ∧ readSideEffect l = none)
      fun {l l'} hl ↦ by rw [hl.isReadStatement, hl.readSideEffect]).mpr ?_
    rw [hstatements]
    refine List.forall_mem_singleton.mpr ⟨?_, ?_⟩
    · have hword : t.word? = some "select".toList := by
        rw [SqlToken.word?, if_pos hkind, htext]
        rfl
      have hlead := (@leadingWord_ofTokens [] ts t hplain (List.forall_mem_nil _)
        (by rw [htext]; decide)).1
      exact isReadStatement_iff.mpr ⟨_, hlead.trans hword, .inl (by decide)⟩
    · rw [readSideEffect, words_eq_significant, significant_ofTokens hplain, List.find?_eq_none]
      intro word hword
      obtain ⟨u, hu, hu'⟩ := List.mem_filterMap.mp hword
      rw [isSideEffectWord_planWords word (word_of_mem_tokens h (hmem u hu) hu')]
      exact Bool.false_ne_true
  have hcount : (lex (partsText (.keyword .select :: ps))).statementCount = 1 := by
    have hlength := congrArg List.length hstatements
    rw [← length_splitStatements, (splitStatements_lexesTo _).length_eq, hlength]
    rfl
  refine ⟨hcount, ?_⟩
  have hsome : splitStatements (partsText (.keyword .select :: ps)) ≠ [] := by
    rw [ne_eq, ← List.length_eq_zero_iff, length_splitStatements, hcount]
    exact Nat.one_ne_zero
  rw [isSideEffectFreeRead, isUnreliable_partsText h, if_neg Bool.false_ne_true]
  simp only [Bool.and_eq_true, Bool.not_eq_true', List.isEmpty_eq_false_iff, List.all_eq_true,
    Option.isNone_iff_eq_none]
  exact ⟨hsome, hpure⟩

end PartsText

/-! ## What a plan contains -/

section Plan

variable (find : Lookup) (manifest : DatasetManifest) (columns : List ColumnCatalogEntry)
  (request : DatasetQueryRequest)

/-- The column of an axis that is asked for. -/
def axisNames (asked : Option Text) (role : FieldRole) : List Text :=
  (asked.bind fun _ ↦ axisColumn find manifest columns role).toList.map (·.column)

/-- The columns that are asked about: those of the axes, and those of the filter. -/
def conditionNames : List Text :=
  axisNames find manifest columns request.entity .entityKey ++
    axisNames find manifest columns request.«from» .timeIndex ++
    axisNames find manifest columns request.«to» .timeIndex ++
    request.filter.elim [] (treeColumns find columns)

variable {find manifest columns request} {R : Rendering} {operators : List OperatorCatalogEntry}
  {compiled : Option CompiledPredicate × Binder} {plan : QueryPlan}

variable (find manifest columns) in
theorem collect_axisPieces {symbol : String} (h : SqlOperator.IsKnown (.compare symbol))
    (asked : Option Text) (role : FieldRole) :
    collect SqlPart.identifier? (axisPieces find manifest columns asked role symbol) =
        axisNames find manifest columns asked role ∧
      collect SqlPart.literal? (axisPieces find manifest columns asked role symbol) = [] := by
  obtain ⟨value, column, rfl, hcolumn⟩ | hnone := asked_or_none find manifest columns asked role
  · obtain ⟨hnames, hliterals⟩ := SqlOperator.filterMap_piece h column.column [value].length
    rw [axisPieces_some hcolumn, axisNames, Option.bind_some, hcolumn, collect_cons, collect_cons,
      hnames, hliterals]
    exact ⟨rfl, rfl⟩
  · have hnames : axisNames find manifest columns asked role = [] := by
      rw [axisNames]
      rcases hnone with rfl | hcolumn
      · rfl
      · rw [hcolumn]
        cases asked <;> rfl
    rw [(@axisFilter_none _ _ _ _ _ symbol .new hnone).2, hnames]
    exact ⟨rfl, rfl⟩

variable (find manifest columns request) in
theorem collect_requestPieces :
    collect SqlPart.identifier? (requestPieces find manifest columns request) =
        axisNames find manifest columns request.entity .entityKey ++
          axisNames find manifest columns request.«from» .timeIndex ++
          axisNames find manifest columns request.«to» .timeIndex ∧
      collect SqlPart.literal? (requestPieces find manifest columns request) = [] := by
  obtain ⟨hentity, hentity'⟩ := collect_axisPieces find manifest columns isKnown_eq request.entity .entityKey
  obtain ⟨hstart, hstart'⟩ := collect_axisPieces find manifest columns isKnown_gte request.«from» .timeIndex
  obtain ⟨hstop, hstop'⟩ := collect_axisPieces find manifest columns isKnown_lte request.«to» .timeIndex
  rw [requestPieces, collect_append, collect_append, collect_append, collect_append, hentity,
    hstart, hstop, hentity', hstart', hstop']
  exact ⟨rfl, rfl⟩

theorem collect_filterPieces {b : Binder}
    (h : compileFilter R find columns request b = .ok compiled) :
    collect SqlPart.identifier? (filterPieces R find columns request) =
        request.filter.elim [] (treeColumns find columns) ∧
      collect SqlPart.literal? (filterPieces R find columns request) = [] := by
  rw [compileFilter] at h
  rw [filterPieces]
  cases hfilter : request.filter with
  | none => exact ⟨rfl, rfl⟩
  | some predicate =>
      rw [hfilter] at h
      exact ⟨collect_piecesOf predicate h, literals_piecesOf predicate⟩

theorem filterMap_whereParts {α : Type} {f : SqlPart → Option α}
    (hf : ∀ p, p.joins → f p = none) (ps : List Piece) :
    (whereParts ps).filterMap f = collect f ps := by
  have hpieces := collect_allPieces hf ps
  rw [whereParts, ← hpieces]
  cases allPieces ps with
  | none => rfl
  | some p =>
      have hblank : f .blank = none := hf _ rfl
      have hwhere : f (.keyword .where) = none := hf _ rfl
      show (SqlPart.blank :: .keyword .where :: .blank :: p.parts).filterMap f = _
      rw [List.filterMap_cons_none hblank, List.filterMap_cons_none hwhere,
        List.filterMap_cons_none hblank]
      exact (List.append_nil _).symm

theorem filterMap_identifierParts (xs : List Text) :
    (identifierParts xs).filterMap SqlPart.identifier? = xs ∧
      (identifierParts xs).filterMap SqlPart.literal? = [] := by
  have hjoins : ∀ p ∈ commaSpace, p.joins := List.all_eq_true.mp rfl
  rw [identifierParts, filterMap_intercalate identifier?_of_joins hjoins,
    filterMap_intercalate literal?_of_joins hjoins, List.flatMap_map, List.flatMap_map]
  exact ⟨List.flatMap_singleton' xs, List.flatMap_eq_nil_iff.mpr fun _ _ ↦ rfl⟩

variable (manifest) in
theorem filterMap_selectParts (projection : List Text) (asOf : Option Text) :
    (selectParts projection manifest asOf).filterMap SqlPart.identifier? =
        projection ++ [manifest.database, manifest.schema, manifest.object] ∧
      (selectParts projection manifest asOf).filterMap SqlPart.literal? = asOf.toList := by
  have hprojection : (projectionParts projection).filterMap SqlPart.identifier? = projection ∧
      (projectionParts projection).filterMap SqlPart.literal? = [] := by
    obtain ⟨hnames, hliterals⟩ := filterMap_identifierParts projection
    cases projection with
    | nil => exact ⟨rfl, rfl⟩
    | cons x xs =>
        have hparts : projectionParts (x :: xs) =
            .blank :: (identifierParts (x :: xs) ++ [.blank]) := rfl
        rw [hparts, List.filterMap_cons_none rfl, List.filterMap_cons_none rfl,
          List.filterMap_append, List.filterMap_append, hnames, hliterals]
        exact ⟨List.append_nil _, rfl⟩
  have hsource : (objectParts manifest.database manifest.schema manifest.object ++
        asOfParts asOf).filterMap SqlPart.identifier? =
          [manifest.database, manifest.schema, manifest.object] ∧
      (objectParts manifest.database manifest.schema manifest.object ++
        asOfParts asOf).filterMap SqlPart.literal? = asOf.toList := by
    cases asOf <;> exact ⟨rfl, rfl⟩
  rw [selectParts, List.filterMap_cons_none rfl, List.filterMap_cons_none rfl]
  constructor
  · rw [List.filterMap_append, hprojection.1, hsource.1]
  · rw [List.filterMap_append, hprojection.2, hsource.2]
    rfl

/-- The SQL of a plan holds the names of its columns and of its object, and the time it
is read at. -/
theorem Planned.contained (h : Planned R find manifest columns operators request compiled plan) :
    Contained plan.sql
      (selectedNames R find manifest (sortedDatasetColumns manifest.id columns) request ++
        [manifest.database, manifest.schema, manifest.object] ++
        conditionNames find manifest (sortedDatasetColumns manifest.id columns) request)
      request.asOf.toList := by
  have hchain := (fragment_planParts R find manifest (sortedDatasetColumns manifest.id columns)
    request).chain
  obtain ⟨hnames, hliterals⟩ := filterMap_selectParts manifest
    (selectedNames R find manifest (sortedDatasetColumns manifest.id columns) request) request.asOf
  obtain ⟨haxes, haxes'⟩ := collect_requestPieces find manifest
    (sortedDatasetColumns manifest.id columns) request
  obtain ⟨hfilter, hfilter'⟩ := collect_filterPieces h.filter
  rw [h.sql_eq]
  refine
    { reliable := isUnreliable_partsText hchain
      single := (read_partsText hchain).1
      read := (read_partsText hchain).2
      identifiers := ?_
      constants := ?_
      words := fun word hword ↦ ?_
      kinds := fun t ht ↦ kind_of_mem_tokens hchain ht }
  · rw [identifiersOf_partsText hchain, planParts, List.filterMap_append, List.filterMap_append,
      hnames, filterMap_whereParts identifier?_of_joins, planPieces, collect_append, haxes, hfilter,
      conditionNames]
    exact congrArg _ (List.append_nil _)
  · rw [constantsOf_partsText hchain, planParts, List.filterMap_append, List.filterMap_append,
      hliterals, filterMap_whereParts literal?_of_joins, planPieces, collect_append, haxes', hfilter']
    exact List.append_nil _
  · obtain ⟨t, ht, hword⟩ := List.mem_filterMap.mp hword
    exact word_of_mem_tokens hchain ht hword

variable (R) in
/-- A plan cannot be injected into, whatever texts its request holds. -/
theorem planDatasetQuery_contained
    (h : planDatasetQuery R manifest columns operators request = .ok plan) :
    Contained plan.sql
      (selectedNames R (findColumnInRefs R) manifest (sortedDatasetColumns manifest.id columns)
          request ++
        [manifest.database, manifest.schema, manifest.object] ++
        conditionNames (findColumnInRefs R) manifest (sortedDatasetColumns manifest.id columns)
          request)
      request.asOf.toList := by
  obtain ⟨compiled, hplanned⟩ := exists_planned h
  exact hplanned.contained

/-! ## The pushdown report -/

mutual

theorem length_treeColumns : ∀ (p : PredicateAst) {b : Binder}
    {o : Option CompiledPredicate × Binder}, compilePredicate R find columns p b = .ok o →
      (treeColumns find columns p).length = countPredicateLeaves p
  | .compound and or not, b, o, h => by
      unfold compilePredicate at h
      obtain ⟨a₁, hand, h⟩ := bind_eq_ok_iff.mp h
      obtain ⟨a₂, hor, h⟩ := bind_eq_ok_iff.mp h
      obtain ⟨a₃, hnot, -⟩ := bind_eq_ok_iff.mp h
      rw [treeColumns, countPredicateLeaves, List.length_append, List.length_append,
        length_treesColumns and hand, length_treesColumns or hor, length_notColumns not hnot]
  | .leaf leaf, b, o, h => by
      unfold compilePredicate at h
      obtain ⟨a, hleaf, -⟩ := bind_eq_ok_iff.mp h
      rw [treeColumns, countPredicateLeaves, List.length_map]
      unfold compileLeaf at hleaf
      cases hcolumn : find leaf.column columns with
      | none => simp [hcolumn] at hleaf
      | some column => rfl

theorem length_treesColumns : ∀ (ps : List PredicateAst) {b : Binder}
    {o : List CompiledPredicate × Binder}, compileMany R find columns ps b = .ok o →
      (treesColumns find columns ps).length = countLeaves ps
  | [], b, o, h => by
      rw [treesColumns, countLeaves]
      rfl
  | p :: ps, b, o, h => by
      unfold compileMany at h
      obtain ⟨a₁, hp, h⟩ := bind_eq_ok_iff.mp h
      obtain ⟨a₂, hps, -⟩ := bind_eq_ok_iff.mp h
      rw [treesColumns, countLeaves, List.length_append, length_treeColumns p hp,
        length_treesColumns ps hps]

theorem length_notColumns : ∀ (p : Option PredicateAst) {b : Binder}
    {o : List CompiledPredicate × Binder}, compileNot R find columns p b = .ok o →
      (notColumns find columns p).length = countLeavesNot p
  | none, b, o, h => by
      rw [notColumns, countLeavesNot]
      rfl
  | some p, b, o, h => by
      unfold compileNot at h
      obtain ⟨a, hp, -⟩ := bind_eq_ok_iff.mp h
      rw [notColumns, countLeavesNot, length_treeColumns p hp]

end

theorem length_axisPieces (asked : Option Text) (role : FieldRole) (symbol : String) :
    (axisPieces find manifest columns asked role symbol).length =
      (axisNames find manifest columns asked role).length := by
  unfold axisPieces axisNames
  cases asked with
  | none => rfl
  | some value =>
      rw [Option.bind_some]
      cases axisColumn find manifest columns role <;> rfl

/-- What a plan reports of its conditions. -/
theorem exists_pushdown (h : planWith R find manifest columns operators request = .ok plan) :
    ∃ compiled, Planned R find manifest columns operators request compiled plan ∧
      plan.pushdown =
        { projectedColumns := (selectedNames R find manifest
            (sortedDatasetColumns manifest.id columns) request).length
          axisFilters := (addAxisFilters find manifest (sortedDatasetColumns manifest.id columns)
            request .new).1.length
          predicateFilters := request.filter.elim 0 countPredicateLeaves
          allPredicatesPushedDown := compiled.1.elim 0 (·.leafCount) =
            request.filter.elim 0 countPredicateLeaves } := by
  obtain ⟨compiled, hplanned⟩ := exists_planned h
  refine ⟨compiled, hplanned, ?_⟩
  unfold planWith at h
  split_ifs at h with hid
  dsimp only at h
  split_ifs at h with haccepted
  cases hassemble : assemble R find manifest request (sortedDatasetColumns manifest.id columns)
      (checkRequest R find manifest (sortedDatasetColumns manifest.id columns) operators
        request).1 with
  | error refusal => simp [hassemble] at h
  | ok result =>
      obtain ⟨sql, bindings, pushdown⟩ := result
      obtain ⟨compiled', hfilter, hresult⟩ := bind_eq_ok_iff.mp hassemble
      obtain rfl := Except.ok.inj (hplanned.filter.symm.trans hfilter)
      obtain ⟨-, hrest⟩ := Prod.mk.inj (pure_eq_ok_iff.mp hresult)
      obtain ⟨-, rfl⟩ := Prod.mk.inj hrest
      simp only [hassemble] at h
      cases hguard : plannerGuardrails sql (effectiveLimit manifest request) request.exportMode
          request.warehouse (queryTag request) with
      | error refusal => simp [hguard] at h
      | ok guarded =>
          simp only [hguard, Except.ok.injEq] at h
          subst h
          rw [selectedNames, List.length_map]
          rfl

theorem leafCount_compileFilter {b : Binder}
    (h : compileFilter R find columns request b = .ok compiled) :
    compiled.1.elim 0 (·.leafCount) = request.filter.elim 0 countPredicateLeaves := by
  rw [compileFilter] at h
  cases hfilter : request.filter with
  | none =>
      rw [hfilter] at h
      obtain rfl := Except.ok.inj h
      rfl
  | some predicate =>
      rw [hfilter] at h
      have hleaves := (compilePredicate_writes predicate h).leaves
      cases hcompiled : compiled.1 with
      | none =>
          rw [hcompiled] at hleaves
          exact hleaves
      | some c =>
          rw [hcompiled] at hleaves
          exact hleaves

theorem length_conditionNames {b b' : Binder}
    (h : compileFilter R find columns request b = .ok compiled) :
    (conditionNames find manifest columns request).length =
      (addAxisFilters find manifest columns request b').1.length +
        request.filter.elim 0 countPredicateLeaves := by
  have hfilter : (request.filter.elim [] (treeColumns find columns)).length =
      request.filter.elim 0 countPredicateLeaves := by
    rw [compileFilter] at h
    cases hfilter : request.filter with
    | none => rfl
    | some predicate =>
        rw [hfilter] at h
        exact length_treeColumns predicate h
  rw [conditionNames, List.length_append, hfilter, addAxisFilters_text, List.length_map,
    requestPieces]
  simp only [List.length_append, length_axisPieces]

variable (R) in
/-- Every comparison of a request is in the SQL, and the report counts what is there. -/
theorem planDatasetQuery_pushesDown
    (h : planDatasetQuery R manifest columns operators request = .ok plan) :
    plan.pushdown.allPredicatesPushedDown = true ∧
      (identifiersOf plan.sql).length = plan.pushdown.projectedColumns + 3 +
        (plan.pushdown.axisFilters + plan.pushdown.predicateFilters) := by
  obtain ⟨compiled, hplanned, hpushdown⟩ := exists_pushdown h
  rw [hpushdown, hplanned.contained.identifiers, List.length_append, List.length_append]
  refine ⟨decide_eq_true (leafCount_compileFilter hplanned.filter), ?_⟩
  exact congrArg _ (length_conditionNames hplanned.filter)

end Plan

/-- The quote in a value of the filter does not reach the SQL. -/
theorem planDatasetQuery_contained_exampleFilter :
    ∃ plan, planDatasetQuery asciiRendering (exampleManifest ["A"]) (exampleColumns ["A"])
        builtInOperatorCatalog (exampleRequest ["A"] exampleFilter) = .ok plan ∧
      Contained plan.sql (["A", "D", "S", "T", "A", "A", "A", "A"].map String.toList) [] := by
  obtain ⟨plan, hplan, -⟩ := exists_ok_of_map planDatasetQuery_exampleFilter
  refine ⟨plan, hplan, ?_⟩
  have hcontained := planDatasetQuery_contained asciiRendering hplan
  rw [sorted_exampleColumns] at hcontained
  exact hcontained

/-- Four comparisons, of which three are in the example's groups. -/
theorem planDatasetQuery_pushesDown_exampleFilter :
    ∃ plan, planDatasetQuery asciiRendering (exampleManifest ["A"]) (exampleColumns ["A"])
        builtInOperatorCatalog (exampleRequest ["A"] exampleFilter) = .ok plan ∧
      plan.pushdown.allPredicatesPushedDown = true := by
  obtain ⟨plan, hplan, -⟩ := exists_ok_of_map planDatasetQuery_exampleFilter
  exact ⟨plan, hplan, (planDatasetQuery_pushesDown asciiRendering hplan).1⟩

end FrankenSnowflake.Catalog
