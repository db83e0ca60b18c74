import FrankenSnowflake.Catalog.PlanSql

/-!
# The conditions of a plan, read back

Lexed, parsed with the precedence of SQL and evaluated on its own bindings, the
condition of an accepted plan says of every row what the axes and the filter of its
request say.
-/

namespace FrankenSnowflake.Catalog

open Foundation SqlLexer SqlCondition

/-! ## The parts of a plan -/

section Parts

variable (R : Rendering) (find : Lookup) (manifest : DatasetManifest)
  (columns : List ColumnCatalogEntry) (request : DatasetQueryRequest)

def filterPieces : List Piece := request.filter.elim [] (piecesOf R find columns)

/-- The conditions of a plan: its axes, and its filter. -/
def planPieces : List Piece :=
  requestPieces find manifest columns request ++ filterPieces R find columns request

/-- The names of the projected columns. -/
def selectedNames : List Text :=
  (resolveProjection R find manifest columns request).1.map (·.column)

def planParts : List SqlPart :=
  selectParts (selectedNames R find manifest columns request) manifest request.asOf ++
    (whereParts (planPieces R find manifest columns request) ++ limitParts)

end Parts

/-! ## Axes and filters -/

section Compile

variable {R : Rendering} {find : Lookup} {manifest : DatasetManifest}
  {columns : List ColumnCatalogEntry} {request : DatasetQueryRequest} {b : Binder}

theorem valid_requestPieces : ∀ p ∈ requestPieces find manifest columns request,
    p.Valid .negation := by
  refine List.forall_mem_append.mpr ⟨List.forall_mem_append.mpr ⟨?_, ?_⟩, ?_⟩
  · exact valid_axisPieces isKnown_eq
  · exact valid_axisPieces isKnown_gte
  · exact valid_axisPieces isKnown_lte

theorem valid_filterPieces : ∀ p ∈ filterPieces R find columns request, p.Valid .negation := by
  intro p hp
  rw [filterPieces] at hp
  cases hfilter : request.filter with
  | none =>
      rw [hfilter] at hp
      cases hp
  | some predicate =>
      rw [hfilter] at hp
      exact valid_piecesOf predicate p hp

variable (R find manifest columns request) in
theorem valid_planPieces : ∀ p ∈ planPieces R find manifest columns request, p.Valid .negation :=
  List.forall_mem_append.mpr ⟨valid_requestPieces, valid_filterPieces⟩

theorem addAxisFilters_text : (addAxisFilters find manifest columns request b).1 =
    (requestPieces find manifest columns request).map Piece.text := by
  rw [requestPieces, List.map_append, List.map_append]
  exact congrArg₂ (· ++ ·) (congrArg₂ (· ++ ·) (axisFilter_text isKnown_eq)
    (axisFilter_text isKnown_gte)) (axisFilter_text isKnown_lte)

theorem addAxisFilters_nextBinding : (addAxisFilters find manifest columns request b).2.nextBinding =
    b.nextBinding + paramsOf (requestPieces find manifest columns request) := by
  rw [requestPieces, paramsOf_append, paramsOf_append, ← Nat.add_assoc, ← Nat.add_assoc,
    ← axisFilter_nextBinding isKnown_eq, ← axisFilter_nextBinding isKnown_gte]
  exact axisFilter_nextBinding isKnown_lte

theorem axisColumn_of_validateAxis {role : FieldRole} {roleName : Text}
    (h : validateAxis R find manifest columns role roleName = []) :
    (axisColumn find manifest columns role).isSome := by
  unfold validateAxis at h
  rw [axisColumn]
  cases hfield : manifest.fieldByRole role with
  | none =>
      rw [hfield] at h
      exact absurd h (List.cons_ne_nil _ _)
  | some field =>
      rw [hfield] at h
      rw [Option.bind_some]
      by_contra hcolumn
      rw [Bool.not_eq_true] at hcolumn
      simp only [hcolumn, Bool.false_eq_true, if_false] at h
      exact absurd h (List.cons_ne_nil _ _)

/-- The axes that an accepted request asks for have columns. -/
theorem axisColumn_of_accepted {operators : List OperatorCatalogEntry}
    (h : (checkRequest R find manifest columns operators request).2 = []) :
    (request.entity.isSome → (axisColumn find manifest columns .entityKey).isSome) ∧
      (request.«from».isSome ∨ request.«to».isSome →
        (axisColumn find manifest columns .timeIndex).isSome) := by
  rw [checkRequest, List.append_eq_nil_iff, List.append_eq_nil_iff, List.append_eq_nil_iff,
    validateAxes, List.append_eq_nil_iff, List.append_eq_nil_iff] at h
  obtain ⟨⟨⟨-, ⟨hentity, htime⟩, -⟩, -⟩, -⟩ := h
  constructor
  · intro hasked
    rw [if_pos hasked] at hentity
    exact axisColumn_of_validateAxis hentity
  · intro hasked
    rw [if_pos hasked] at htime
    exact axisColumn_of_validateAxis htime

theorem extends_axisFilter (asked : Option Text) (role : FieldRole) (symbol : Text) :
    b.Extends (axisFilter find manifest columns asked role symbol b).2 :=
  (kept_extends b).axisFilter asked role symbol (.refl b)

variable (find manifest columns request b) in
theorem extends_addAxisFilters : b.Extends (addAxisFilters find manifest columns request b).2 :=
  (kept_extends b).addAxisFilters (.refl b)

variable {V : Type} {I : Interpretation V} {row : Text → V} {value : TypedBinding → V}
  {params : Nat → V}

theorem truthOf_requestPieces {operators : List OperatorCatalogEntry}
    (haccepted : (checkRequest R find manifest columns operators request).2 = [])
    (h : Bound params value b (addAxisFilters find manifest columns request b).2) :
    truthOf I row params b.nextBinding (requestPieces find manifest columns request) =
      axesMeaning find manifest columns I row value request := by
  obtain ⟨hentity, htime⟩ := axisColumn_of_accepted haccepted
  have hfirst : b.Extends (axisFilter find manifest columns request.entity .entityKey "=".toList b).2 :=
    extends_axisFilter _ _ _
  have hstart : Binder.Extends _ (axisFilter find manifest columns request.«from» .timeIndex
      ">=".toList (axisFilter find manifest columns request.entity .entityKey "=".toList b).2).2 :=
    extends_axisFilter _ _ _
  have hstop : Binder.Extends _ (addAxisFilters find manifest columns request b).2 :=
    extends_axisFilter _ _ _
  have hrest := h.right hfirst
  rw [requestPieces, truthOf_append, truthOf_append, paramsOf_append, ← Nat.add_assoc,
    ← axisFilter_nextBinding isKnown_eq, ← axisFilter_nextBinding isKnown_gte, axesMeaning,
    truthOf_axisPieces hentity ((h.left hstop).left hstart),
    truthOf_axisPieces (fun hasked ↦ htime (.inl hasked)) (hrest.left hstop),
    truthOf_axisPieces (fun hasked ↦ htime (.inr hasked)) (hrest.right hstart)]

/-! ## The filter -/

variable {compiled : Option CompiledPredicate × Binder}

theorem compileFilter_text (h : compileFilter R find columns request b = .ok compiled) :
    compiled.1.toList.map (·.sql) =
      (allPieces (filterPieces R find columns request)).toList.map Piece.text := by
  rw [compileFilter] at h
  rw [filterPieces]
  cases hfilter : request.filter with
  | none =>
      rw [hfilter] at h
      obtain rfl := Except.ok.inj h
      rfl
  | some predicate =>
      rw [hfilter] at h
      exact (compilePredicate_writes predicate h).sql

theorem compileFilter_nextBinding (h : compileFilter R find columns request b = .ok compiled) :
    compiled.2.nextBinding = b.nextBinding + paramsOf (filterPieces R find columns request) := by
  rw [compileFilter] at h
  rw [filterPieces]
  cases hfilter : request.filter with
  | none =>
      rw [hfilter] at h
      obtain rfl := Except.ok.inj h
      rfl
  | some predicate =>
      rw [hfilter] at h
      exact nextBinding_compilePredicate h

theorem extends_compileFilter (h : compileFilter R find columns request b = .ok compiled) :
    b.Extends compiled.2 := (kept_extends b).compileFilter h (.refl b)

variable (I row value R find columns request) in
/-- What the filter of a request says of a row. -/
def filterMeaning : Truth := request.filter.elim (some true) (meaning I row value R find columns)

theorem truthOf_filterPieces (h : compileFilter R find columns request b = .ok compiled)
    (hleafy : ∀ p ∈ request.filter, Leafy p) (hbound : Bound params value b compiled.2) :
    truthOf I row params b.nextBinding (filterPieces R find columns request) =
      filterMeaning R find columns request I row value := by
  rw [compileFilter] at h
  rw [filterPieces, filterMeaning]
  cases hfilter : request.filter with
  | none => rfl
  | some predicate =>
      rw [hfilter] at h hleafy
      exact truthOf_piecesOf predicate h (hleafy predicate rfl) hbound

end Compile

/-! ## The parts are linked -/

theorem bridge_blank : Bridge [.blank] where
  chain := .singleton _
  ne_nil := List.cons_ne_nil _ _
  behind _ hp _ hq := Option.some.inj hq ▸ SqlPart.linked_blank hp
  before _ hp _ hq := Option.some.inj hq ▸ SqlPart.blank_linked hp

theorem bridge_gap : Bridge [.gap] where
  chain := .singleton _
  ne_nil := List.cons_ne_nil _ _
  behind _ hp _ hq := Option.some.inj hq ▸ SqlPart.linked_gap hp
  before p hp _ hq := by
    obtain rfl := Option.some.inj hq
    have hblank : SqlPart.Linked .blank p := SqlPart.blank_linked hp
    exact hblank

theorem fragment_selectParts (projection : List Text) (manifest : DatasetManifest)
    (asOf : Option Text) : Fragment (selectParts projection manifest asOf) := by
  have hobject : Fragment (objectParts manifest.database manifest.schema manifest.object) :=
    fragment_of_isFragment rfl
  have hsource : Fragment (objectParts manifest.database manifest.schema manifest.object ++
      asOfParts asOf) := by
    cases asOf with
    | none =>
        rw [asOfParts, List.append_nil]
        exact hobject
    | some asOf => exact hobject.append bridge_blank (fragment_of_isFragment rfl)
  have hselect : Fragment [.keyword .select] := .singleton rfl
  cases projection with
  | nil => exact hselect.append bridge_gap hsource
  | cons x xs =>
      have hcolumns : Fragment (identifierParts (x :: xs)) := by
        refine .intercalate bridge_commaSpace (List.cons_ne_nil _ _) fun ps hps ↦ ?_
        obtain ⟨y, -, rfl⟩ := List.mem_map.mp hps
        exact .singleton rfl
      have hparts := hselect.append bridge_blank (hcolumns.append bridge_blank hsource)
      have heq : selectParts (x :: xs) manifest asOf = [.keyword .select] ++ ([.blank] ++
          (identifierParts (x :: xs) ++ ([.blank] ++
            (objectParts manifest.database manifest.schema manifest.object ++
              asOfParts asOf)))) := by
        show SqlPart.keyword .select :: (.blank :: (identifierParts (x :: xs) ++ [.blank]) ++ _) = _
        rw [List.cons_append, List.append_assoc]
        rfl
      rw [heq]
      exact hparts

section Plan

variable {R : Rendering} {find : Lookup} {manifest : DatasetManifest}
  {columns : List ColumnCatalogEntry} {request : DatasetQueryRequest}

theorem allPieces_some {ps : List Piece} {p : Piece} (h : allPieces ps = some p)
    (hvalid : ∀ q ∈ ps, q.Valid .negation) : p.Valid .disjunction :=
  (valid_allPieces hvalid p h).disjunction

variable (R find manifest columns request) in
theorem fragment_planParts : Fragment (planParts R find manifest columns request) := by
  have hselect := fragment_selectParts (selectedNames R find manifest columns request) manifest
    request.asOf
  have hlimit : Fragment [SqlPart.placeholder] := .singleton rfl
  rw [planParts, whereParts]
  cases hpieces : allPieces (planPieces R find manifest columns request) with
  | none =>
      have hparts := hselect.append (bridge_spacedWord .limit) hlimit
      exact hparts
  | some p =>
      have hp := (allPieces_some hpieces (valid_planPieces R find manifest columns request)).fragment
      have hparts := hselect.append (bridge_spacedWord .where)
        (hp.append (bridge_spacedWord .limit) hlimit)
      exact hparts

/-! ## The text of a plan -/

theorem filterMap_singletons (ps : List Piece) :
    ((ps.map fun p ↦ [p]).filterMap allPieces).map Piece.text = ps.map Piece.text := by
  induction ps with
  | nil => rfl
  | cons p ps ih =>
      have htext : (Piece.allOf p []).text = p.text := by
        rw [text_allOf, join, List.map_singleton, List.intercalate_singleton]
      show (Piece.allOf p []).text :: ((ps.map fun p ↦ [p]).filterMap allPieces).map Piece.text = _
      rw [htext, ih]
      rfl

theorem whereText_planPieces {b : Binder} {compiled : Option CompiledPredicate × Binder}
    (h : compileFilter R find columns request
      (addAxisFilters find manifest columns request b).2 = .ok compiled) :
    whereText ((addAxisFilters find manifest columns request b).1 ++
        compiled.1.toList.map (·.sql)) =
      partsText (whereParts (planPieces R find manifest columns request)) := by
  have hflatten : ((requestPieces find manifest columns request).map (fun p ↦ [p]) ++
      [filterPieces R find columns request]).flatten =
        planPieces R find manifest columns request := by
    rw [List.flatten_append, List.flatten_singleton, planPieces]
    congr 1
    rw [← List.flatMap_def]
    exact List.flatMap_singleton' _
  have hlast : ([filterPieces R find columns request].filterMap allPieces) =
      (allPieces (filterPieces R find columns request)).toList := by
    rw [List.filterMap_cons]
    cases allPieces (filterPieces R find columns request) <;> rfl
  rw [addAxisFilters_text, compileFilter_text h, ← hflatten, ← whereText_eq, List.filterMap_append,
    List.map_append, filterMap_singletons, hlast]

theorem limitText_eq (select conditions : Text) :
    select ++ conditions ++ " LIMIT ".toList ++ "?".toList =
      select ++ (conditions ++ partsText limitParts) := by
  rw [List.append_assoc, List.append_assoc]
  rfl

variable {operators : List OperatorCatalogEntry} {compiled : Option CompiledPredicate × Binder}
  {plan : QueryPlan}

/-- The text of a plan is the text of its parts. -/
theorem Planned.sql_eq (h : Planned R find manifest columns operators request compiled plan) :
    plan.sql = partsText
      (planParts R find manifest (sortedDatasetColumns manifest.id columns) request) := by
  rw [h.sql, selectFrom_parts, whereText_planPieces h.filter, limitText_eq, planParts,
    partsText_append, partsText_append]
  rfl

end Plan

/-! ## Tokens -/

/-- The tokens of a text. -/
def sqlTokens (sql : Text) : List Token := readTokens 1 (significantContent sql)

theorem sqlTokens_partsText {ps : List SqlPart} (h : ps.IsChain SqlPart.Linked) :
    sqlTokens (partsText ps) = tokensOf 1 ps := by
  rw [sqlTokens, significantContent_lexemes, lexemes_partsText h]
  exact readTokens_contentOf 1 ps

/-- What a statement asks of a row: the condition between its first `WHERE` and its limit,
if it has one. -/
def whereTruth {V : Type} (I : Interpretation V) (row : Text → V) (params : Nat → V) (sql : Text) :
    Option Truth :=
  match (sqlTokens sql).dropWhile (· ≠ .kw "where") with
  | [] => some (some true)
  | _ :: ts =>
      match parse (4 * ts.length + 4) .disjunction ts with
      | some (c, [.word w, .param _]) =>
          if w = "limit".toList then some (c.eval I row params) else none
      | _ => none

/-- No placeholder, and not the word before the conditions. -/
def SqlPart.isBefore (p : SqlPart) : Bool := p ≠ .placeholder && p ≠ .keyword .where

theorem mem_intercalate {α : Type} {sep : List α} {xss : List (List α)} {x : α}
    (h : x ∈ sep.intercalate xss) : x ∈ sep ∨ ∃ xs ∈ xss, x ∈ xs := by
  induction xss with
  | nil => cases h
  | cons xs xss ih =>
      cases xss with
      | nil =>
          rw [List.intercalate_singleton] at h
          exact .inr ⟨xs, List.mem_singleton_self xs, h⟩
      | cons ys xss =>
          rw [List.intercalate_cons_cons, List.mem_append, List.mem_append] at h
          rcases h with (h | h) | h
          · exact .inr ⟨xs, List.mem_cons_self, h⟩
          · exact .inl h
          · rcases ih h with h | ⟨zs, hzs, hx⟩
            · exact .inl h
            · exact .inr ⟨zs, List.mem_cons_of_mem _ hzs, hx⟩

theorem isBefore_identifierParts (xs : List Text) : ∀ p ∈ identifierParts xs, p.isBefore := by
  intro p hp
  rcases mem_intercalate hp with hp | ⟨ps, hps, hp⟩
  · rcases List.mem_cons.mp hp with rfl | hp
    · rfl
    · obtain rfl := List.mem_singleton.mp hp
      rfl
  · obtain ⟨x, -, rfl⟩ := List.mem_map.mp hps
    obtain rfl := List.mem_singleton.mp hp
    rfl

theorem isBefore_selectParts (projection : List Text) (manifest : DatasetManifest)
    (asOf : Option Text) : ∀ p ∈ selectParts projection manifest asOf, p.isBefore := by
  rw [selectParts]
  refine List.forall_mem_cons.mpr ⟨rfl, List.forall_mem_append.mpr
    ⟨?_, List.forall_mem_append.mpr ⟨?_, ?_⟩⟩⟩
  · rw [projectionParts]
    split
    · exact List.forall_mem_singleton.mpr rfl
    · refine List.forall_mem_cons.mpr ⟨rfl, List.forall_mem_append.mpr
        ⟨isBefore_identifierParts projection, List.forall_mem_singleton.mpr rfl⟩⟩
  · rw [← List.all_eq_true]
    rfl
  · rw [← List.all_eq_true]
    cases asOf <;> rfl

theorem placeholders_of_isBefore {ps : List SqlPart} (h : ∀ p ∈ ps, p.isBefore) :
    placeholders ps = 0 := by
  refine List.count_eq_zero.mpr fun hmem ↦ ?_
  exact absurd (h _ hmem) Bool.false_ne_true

theorem dropWhile_tokensOf {ps : List SqlPart} (h : ∀ p ∈ ps, p.isBefore) (k : Nat)
    (ts : List Token) : (tokensOf k ps ++ ts).dropWhile (· ≠ .kw "where") =
      ts.dropWhile (· ≠ .kw "where") := by
  induction ps with
  | nil => rfl
  | cons p ps ih =>
      obtain ⟨hp, hps⟩ := List.forall_mem_cons.mp h
      have hrest := ih hps
      cases p with
      | placeholder => cases hp
      | blank | gap => exact hrest
      | zero | literal | mark | identifier =>
          rw [← hrest]
          exact List.dropWhile_cons_of_pos rfl
      | keyword w =>
          rw [← hrest]
          refine List.dropWhile_cons_of_pos ?_
          cases w with
          | «where» => cases hp
          | _ => rfl

/-! ## The condition of a plan -/

section Plan

variable {R : Rendering} {find : Lookup} {manifest : DatasetManifest}
  {columns : List ColumnCatalogEntry} {operators : List OperatorCatalogEntry}
  {request : DatasetQueryRequest} {compiled : Option CompiledPredicate × Binder}
  {plan : QueryPlan} {V : Type} {I : Interpretation V} {row : Text → V}
  {value : TypedBinding → V}

theorem dropWhile_planParts : (tokensOf 1 (planParts R find manifest columns request)).dropWhile
    (· ≠ .kw "where") =
      (tokensOf 1 (whereParts (planPieces R find manifest columns request) ++ limitParts)).dropWhile
        (· ≠ .kw "where") := by
  have hbefore := isBefore_selectParts (selectedNames R find manifest columns request) manifest
    request.asOf
  rw [planParts, tokensOf_append, dropWhile_tokensOf hbefore, placeholders_of_isBefore hbefore]

/-- The condition of linked parts, by their pieces. -/
theorem whereTruth_planParts (params : Nat → V) :
    whereTruth I row params (partsText (planParts R find manifest columns request)) =
      some (truthOf I row params 1 (planPieces R find manifest columns request)) := by
  rw [whereTruth, sqlTokens_partsText (fragment_planParts ..).chain, dropWhile_planParts]
  have hvalid := valid_planPieces R find manifest columns request
  generalize planPieces R find manifest columns request = ps at hvalid
  rw [whereParts]
  cases ps with
  | nil => rfl
  | cons p ps =>
      have hreads := (Piece.valid_allOf hvalid).disjunction.reads 1
      have htokens : tokensOf 1 ((.blank :: .keyword .where :: .blank :: (Piece.allOf p ps).parts) ++
          limitParts) = .kw "where" :: (tokensOf 1 (Piece.allOf p ps).parts ++
            [.kw "limit", .param (1 + placeholders (Piece.allOf p ps).parts)]) := by
        show Token.kw "where" :: tokensOf 1 ((Piece.allOf p ps).parts ++ limitParts) = _
        rw [tokensOf_append]
        rfl
      have hparse := hreads (4 * (tokensOf 1 (Piece.allOf p ps).parts ++
          [Token.kw "limit", .param (1 + placeholders (Piece.allOf p ps).parts)]).length + 4)
        [Token.kw "limit", .param (1 + placeholders (Piece.allOf p ps).parts)]
        (by rw [List.length_append, Level.rank]; omega) ⟨by simp [Token.kw], by simp [Token.kw]⟩
      rw [allPieces, htokens, List.dropWhile_cons_of_neg (by simp)]
      dsimp only
      rw [hparse, ← eval_allOf]
      rfl

variable (value) in
theorem bound_planned (h : Planned R find manifest columns operators request compiled plan) :
    Bound (fun i ↦ value (bindingAt plan.bindings i)) value .new compiled.2 := by
  intro i _ hi
  have hextends := extends_pushBinding compiled.2 .number
    (Nat.toDigits 10 (effectiveLimit manifest request))
  show value (bindingAt plan.bindings i) = _
  rw [h.bindings, hextends.bindingAt hi]

/-- The condition of a plan says what its request says. -/
theorem Planned.whereTruth_eq (h : Planned R find manifest columns operators request compiled plan)
    (hleafy : ∀ p ∈ request.filter, Leafy p) :
    whereTruth I row (fun i ↦ value (bindingAt plan.bindings i)) plan.sql =
      some (Truth.and
        (axesMeaning find manifest (sortedDatasetColumns manifest.id columns) I row value request)
        (filterMeaning R find (sortedDatasetColumns manifest.id columns) request I row value)) := by
  have hbound := bound_planned value h
  have hcompiled := extends_compileFilter h.filter
  have haxes := extends_addAxisFilters find manifest (sortedDatasetColumns manifest.id columns)
    request .new
  have hfirst : truthOf I row _ _ _ = axesMeaning _ _ _ I row value _ :=
    truthOf_requestPieces h.accepted (hbound.left hcompiled)
  have hfilter : truthOf I row _ _ _ = filterMeaning _ _ _ _ I row value :=
    truthOf_filterPieces h.filter hleafy (hbound.right haxes)
  rw [addAxisFilters_nextBinding] at hfilter
  rw [h.sql_eq, whereTruth_planParts, planPieces, truthOf_append]
  exact congrArg some (congrArg₂ Truth.and hfirst hfilter)

variable (R) in
/-- Lexed, parsed and evaluated on its bindings, the condition of an accepted plan is the
conjunction of the axes and the filter of its request. -/
theorem planDatasetQuery_means (h : planDatasetQuery R manifest columns operators request = .ok plan)
    (hleafy : ∀ p ∈ request.filter, Leafy p) (I : Interpretation V) (row : Text → V)
    (value : TypedBinding → V) :
    whereTruth I row (fun i ↦ value (bindingAt plan.bindings i)) plan.sql =
      some (Truth.and
        (axesMeaning (findColumnInRefs R) manifest (sortedDatasetColumns manifest.id columns) I row
          value request)
        (filterMeaning R (findColumnInRefs R) (sortedDatasetColumns manifest.id columns) request I
          row value)) := by
  obtain ⟨compiled, hplanned⟩ := exists_planned h
  exact hplanned.whereTruth_eq hleafy

end Plan

/-- A filter with all three kinds of children. -/
def exampleFilter : PredicateAst :=
  .compound [.leaf ⟨"A".toList, "neq".toList, some (.string "x' OR 1=1".toList)⟩]
    [.leaf ⟨"A".toList, "in".toList, some (.array [.string "y".toList, .string "z".toList])⟩,
      .leaf ⟨"A".toList, "is_null".toList, none⟩]
    (some (.leaf ⟨"A".toList, "contains".toList, some (.string "?".toList)⟩))

theorem leafy_exampleFilter : Leafy exampleFilter := by
  simp [exampleFilter, Leafy, LeafyChildren, LeafyNot, countPredicateLeaves]

theorem planDatasetQuery_exampleFilter :
    ((planDatasetQuery asciiRendering (exampleManifest ["A"]) (exampleColumns ["A"])
      builtInOperatorCatalog (exampleRequest ["A"] exampleFilter)).map (·.sql)).toOption =
        some ("SELECT \"A\" FROM \"D\".\"S\".\"T\" WHERE (\"A\" != ?) AND ".toList ++
          "(\"A\" IN (?, ?) OR \"A\" IS NULL) AND NOT (POSITION(? IN \"A\") > 0) LIMIT ?".toList) := by
  unfold planDatasetQuery planWith
  rw [sorted_exampleColumns]
  decide +kernel

/-- Texts as values; the empty text stands for `NULL`. -/
def textInterpretation : Interpretation Text where
  isNull := List.isEmpty
  compare symbol x y :=
    if x.isEmpty || y.isEmpty then none
    else if symbol = "=" then some (x = y)
    else if symbol = "!=" then some (x ≠ y)
    else if symbol = ">" then some (y < x)
    else none
  position needle hay := if needle <:+: hay then ['1'] else ['0']
  number text := text

/-- The row whose `A` is `y` is asked for. -/
theorem planDatasetQuery_means_exampleFilter :
    ∃ plan, planDatasetQuery asciiRendering (exampleManifest ["A"]) (exampleColumns ["A"])
        builtInOperatorCatalog (exampleRequest ["A"] exampleFilter) = .ok plan ∧
      whereTruth textInterpretation (fun _ ↦ ['y']) (fun i ↦ (bindingAt plan.bindings i).value)
        plan.sql = some (some true) := by
  obtain ⟨plan, hplan, -⟩ := exists_ok_of_map planDatasetQuery_exampleFilter
  have hleafy : ∀ p ∈ (exampleRequest ["A"] exampleFilter).filter, Leafy p :=
    fun p hp ↦ Option.some.inj hp ▸ leafy_exampleFilter
  have hmeans := planDatasetQuery_means asciiRendering hplan hleafy textInterpretation
    (fun _ ↦ ['y']) TypedBinding.value
  rw [sorted_exampleColumns] at hmeans
  refine ⟨plan, hplan, hmeans.trans ?_⟩
  decide +kernel

end FrankenSnowflake.Catalog
