import FrankenSnowflake.Catalog.PlanPieces

/-!
# The filter of a plan

The pieces that the compiler writes for a tree.  A child without leaves writes none,
so a group has the pieces of its other children.
-/

namespace FrankenSnowflake.Catalog

open Foundation SqlLexer SqlCondition

/-! ## Groups -/

/-- All of some pieces, if there are any. -/
def allPieces : List Piece → Option Piece
  | [] => none
  | p :: ps => some (.allOf p ps)

/-- One of the children that have pieces, if there are any. -/
def anyPieces (groups : List (List Piece)) : Option Piece :=
  match groups.filterMap allPieces with
  | [] => none
  | p :: ps => some (.anyOf p ps)

def groupAll (groups : List (List Piece)) : List Piece :=
  (allPieces groups.flatten).toList.map Piece.paren

def groupAny (groups : List (List Piece)) : List Piece :=
  (anyPieces groups).toList.map Piece.paren

section Tree

variable (R : Rendering) (find : Lookup) (columns : List ColumnCatalogEntry)

/-- The piece of a leaf whose column and operator are known. -/
def leafPieces (leaf : LeafPredicate) : List Piece :=
  match find leaf.column columns, sqlOperator leaf.op with
  | some column, some op => [op.piece column.column (valueStrings R leaf.value).length]
  | _, _ => []

mutual

def piecesOf : PredicateAst → List Piece
  | .compound and or not => groupAll (groupsOf and) ++ groupAny (groupsOf or) ++ notPieces not
  | .leaf leaf => leafPieces R find columns leaf

def groupsOf : List PredicateAst → List (List Piece)
  | [] => []
  | p :: ps => piecesOf p :: groupsOf ps

def notPieces : Option PredicateAst → List Piece
  | none => []
  | some p => (allPieces (piecesOf p)).toList.map Piece.not

end

end Tree

/-! ## Parameters -/

theorem paramsOf_toList_allPieces (ps : List Piece) : paramsOf (allPieces ps).toList = paramsOf ps := by
  cases ps with
  | nil => rfl
  | cons p ps => exact congrArg (· + 0) (Piece.params_allOf p ps)

theorem paramsOf_map {f : Piece → Piece} (hf : ∀ p, (f p).params = p.params) (ps : List Piece) :
    paramsOf (ps.map f) = paramsOf ps := by
  have hparams : Piece.params ∘ f = Piece.params := funext hf
  rw [paramsOf, List.map_map, hparams]
  rfl

theorem paramsOf_groupAll (groups : List (List Piece)) :
    paramsOf (groupAll groups) = paramsOf groups.flatten := by
  rw [groupAll, paramsOf_map Piece.params_paren, paramsOf_toList_allPieces]

theorem paramsOf_filterMap_allPieces (groups : List (List Piece)) :
    paramsOf (groups.filterMap allPieces) = paramsOf groups.flatten := by
  induction groups with
  | nil => rfl
  | cons group groups ih =>
      have hgroup := paramsOf_toList_allPieces group
      rw [List.flatten_cons, paramsOf_append, ← ih, ← hgroup]
      cases group with
      | nil => exact (Nat.zero_add _).symm
      | cons p ps => rfl

theorem paramsOf_groupAny (groups : List (List Piece)) :
    paramsOf (groupAny groups) = paramsOf groups.flatten := by
  rw [groupAny, paramsOf_map Piece.params_paren, ← paramsOf_filterMap_allPieces, anyPieces]
  cases groups.filterMap allPieces with
  | nil => rfl
  | cons p ps => exact congrArg (· + 0) (Piece.params_anyOf p ps)

/-! ## Validity -/

theorem valid_allPieces {ps : List Piece} (h : ∀ p ∈ ps, p.Valid .negation) :
    ∀ p ∈ allPieces ps, p.Valid .conjunction := by
  intro p hp
  cases ps with
  | nil => cases hp
  | cons q qs =>
      obtain rfl := Option.some.inj hp
      exact Piece.valid_allOf h

theorem valid_groupAll {groups : List (List Piece)}
    (h : ∀ group ∈ groups, ∀ p ∈ group, p.Valid .negation) :
    ∀ p ∈ groupAll groups, p.Valid .negation := by
  intro p hp
  obtain ⟨q, hq, rfl⟩ := List.mem_map.mp hp
  apply Piece.Valid.paren
  apply Piece.Valid.disjunction
  refine valid_allPieces (fun r hr ↦ ?_) q (Option.mem_toList.mp hq)
  obtain ⟨group, hgroup, hmem⟩ := List.mem_flatten.mp hr
  exact h group hgroup r hmem

theorem valid_groupAny {groups : List (List Piece)}
    (h : ∀ group ∈ groups, ∀ p ∈ group, p.Valid .negation) :
    ∀ p ∈ groupAny groups, p.Valid .negation := by
  intro p hp
  obtain ⟨q, hq, rfl⟩ := List.mem_map.mp hp
  apply Piece.Valid.paren
  have hchildren : ∀ r ∈ groups.filterMap allPieces, r.Valid .conjunction := by
    intro r hr
    obtain ⟨group, hgroup, hmem⟩ := List.mem_filterMap.mp hr
    exact valid_allPieces (h group hgroup) r hmem
  have hq := Option.mem_toList.mp hq
  rw [anyPieces] at hq
  cases hgroups : groups.filterMap allPieces with
  | nil =>
      rw [hgroups] at hq
      cases hq
  | cons r rs =>
      rw [hgroups] at hq hchildren
      obtain rfl := Option.some.inj hq
      exact Piece.valid_anyOf hchildren

section Tree

variable {R : Rendering} {find : Lookup} {columns : List ColumnCatalogEntry}

theorem valid_leafPieces (leaf : LeafPredicate) :
    ∀ p ∈ leafPieces R find columns leaf, p.Valid .negation := by
  intro p hp
  unfold leafPieces at hp
  cases hcolumn : find leaf.column columns with
  | none => simp [hcolumn] at hp
  | some column =>
      cases hop : sqlOperator leaf.op with
      | none => simp [hcolumn, hop] at hp
      | some op =>
          simp only [hcolumn, hop, List.mem_singleton] at hp
          subst hp
          exact op.valid_piece ⟨leaf.op, hop⟩ _ _

mutual

/-- Every piece is read as its condition. -/
theorem valid_piecesOf : ∀ p : PredicateAst, ∀ q ∈ piecesOf R find columns p, q.Valid .negation
  | .compound and or not => by
      rw [piecesOf]
      refine List.forall_mem_append.mpr ⟨List.forall_mem_append.mpr ⟨?_, ?_⟩, valid_notPieces not⟩
      · exact valid_groupAll (valid_groupsOf and)
      · exact valid_groupAny (valid_groupsOf or)
  | .leaf leaf => by
      rw [piecesOf]
      exact valid_leafPieces leaf

theorem valid_groupsOf : ∀ ps : List PredicateAst, ∀ group ∈ groupsOf R find columns ps,
    ∀ q ∈ group, q.Valid .negation
  | [] => by
      rw [groupsOf]
      exact List.forall_mem_nil _
  | p :: ps => by
      rw [groupsOf]
      exact List.forall_mem_cons.mpr ⟨valid_piecesOf p, valid_groupsOf ps⟩

theorem valid_notPieces : ∀ p : Option PredicateAst, ∀ q ∈ notPieces R find columns p,
    q.Valid .negation
  | none => by
      rw [notPieces]
      exact List.forall_mem_nil _
  | some p => by
      rw [notPieces]
      intro q hq
      obtain ⟨r, hr, rfl⟩ := List.mem_map.mp hq
      apply Piece.Valid.not
      exact (valid_allPieces (valid_piecesOf p) r (Option.mem_toList.mp hr)).disjunction

end

end Tree

/-! ## Texts -/

/-- The text of a piece. -/
def Piece.text (p : Piece) : Text := partsText p.parts

theorem text_paren (p : Piece) : p.paren.text = "(".toList ++ p.text ++ ")".toList := by
  rw [Piece.text, Piece.paren, partsText_cons, partsText_append, List.append_assoc]
  rfl

theorem text_not (p : Piece) : p.not.text = "NOT (".toList ++ p.text ++ ")".toList := by
  rw [Piece.text, Piece.not, partsText_cons, partsText_cons]
  show _ ++ (_ ++ p.paren.text) = _
  rw [text_paren, List.append_assoc]
  rfl

theorem text_allOf (p : Piece) (ps : List Piece) :
    (Piece.allOf p ps).text = join " AND ".toList ((p :: ps).map Piece.text) := by
  rw [Piece.text, Piece.allOf, wordJoined, partsText_intercalate, List.map_map]
  rfl

theorem text_anyOf (p : Piece) (ps : List Piece) :
    (Piece.anyOf p ps).text = join " OR ".toList ((p :: ps).map Piece.text) := by
  rw [Piece.text, Piece.anyOf, wordJoined, partsText_intercalate, List.map_map]
  rfl

theorem intercalate_append {α : Type} {sep : List α} {xs ys : List (List α)} (hxs : xs ≠ [])
    (hys : ys ≠ []) : sep.intercalate (xs ++ ys) =
      sep.intercalate xs ++ sep ++ sep.intercalate ys := by
  induction xs with
  | nil => exact absurd rfl hxs
  | cons x xs ih =>
      cases xs with
      | nil => rw [List.singleton_append, List.intercalate_cons_of_ne_nil hys,
          List.intercalate_singleton]
      | cons x' xs =>
          have hrest := ih (List.cons_ne_nil _ _)
          rw [List.cons_append] at hrest
          rw [List.cons_append, List.cons_append, List.intercalate_cons_cons, hrest,
            List.intercalate_cons_cons]
          simp only [List.append_assoc]

theorem allPieces_eq_none {ps : List Piece} : allPieces ps = none ↔ ps = [] := by
  cases ps with
  | nil => exact iff_of_true rfl rfl
  | cons p ps => exact iff_of_false (Option.some_ne_none _) (List.cons_ne_nil _ _)

theorem filterMap_allPieces_eq_nil {groups : List (List Piece)} :
    groups.filterMap allPieces = [] ↔ groups.flatten = [] := by
  rw [List.filterMap_eq_nil_iff, List.flatten_eq_nil_iff]
  exact forall₂_congr fun group _ ↦ allPieces_eq_none

/-- A conjunction of conjunctions is one conjunction. -/
theorem join_filterMap_allPieces (groups : List (List Piece)) :
    join " AND ".toList ((groups.filterMap allPieces).map Piece.text) =
      join " AND ".toList (groups.flatten.map Piece.text) := by
  induction groups with
  | nil => rfl
  | cons group groups ih =>
      cases group with
      | nil => exact ih
      | cons p ps =>
          have hcons : ((p :: ps) :: groups).filterMap allPieces =
              Piece.allOf p ps :: groups.filterMap allPieces := rfl
          rw [hcons, List.map_cons, text_allOf, List.flatten_cons, List.map_append]
          by_cases hrest : groups.flatten = []
          · rw [filterMap_allPieces_eq_nil.mpr hrest, hrest]
            simp only [List.map_nil, List.append_nil]
            exact List.intercalate_singleton
          · have hne : (groups.filterMap allPieces).map Piece.text ≠ [] := by
              rw [ne_eq, List.map_eq_nil_iff, filterMap_allPieces_eq_nil]
              exact hrest
            have hne' : groups.flatten.map Piece.text ≠ [] := by
              rw [ne_eq, List.map_eq_nil_iff]
              exact hrest
            have hne'' : (p :: ps).map Piece.text ≠ [] := List.cons_ne_nil _ _
            rw [join, join, join, List.intercalate_cons_of_ne_nil hne,
              intercalate_append hne'' hne']
            rw [join, join] at ih
            rw [ih]

/-- What the compiler returns, and the pieces that it wrote. -/
structure Writes (b : Binder) (o : List CompiledPredicate × Binder) (ps : List Piece)
    (leaves : Nat) : Prop where
  sql : o.1.map (·.sql) = ps.map Piece.text
  nextBinding : o.2.nextBinding = b.nextBinding + paramsOf ps
  leaves : (o.1.map (·.leafCount)).sum = leaves

namespace Writes

variable {b b' b'' : Binder} {cs ds : List CompiledPredicate} {ps qs : List Piece} {n m : Nat}

theorem append (h : Writes b (cs, b') ps n) (h' : Writes b' (ds, b'') qs m) :
    Writes b (cs ++ ds, b'') (ps ++ qs) (n + m) where
  sql := by
    show (cs ++ ds).map (·.sql) = _
    rw [List.map_append, List.map_append]
    exact congrArg₂ (· ++ ·) h.sql h'.sql
  nextBinding := by
    rw [paramsOf_append, ← Nat.add_assoc]
    exact h'.nextBinding.trans (congrArg (· + paramsOf qs) h.nextBinding)
  leaves := by
    show ((cs ++ ds).map (·.leafCount)).sum = _
    rw [List.map_append, List.sum_append]
    exact congrArg₂ (· + ·) h.leaves h'.leaves

theorem isEmpty_eq (h : Writes b (cs, b') ps n) : cs.isEmpty = ps.isEmpty := by
  have hlength := congrArg List.length h.sql
  rw [List.length_map, List.length_map] at hlength
  cases cs with
  | nil =>
      obtain rfl := List.length_eq_zero_iff.mp hlength.symm
      rfl
  | cons c cs =>
      cases ps with
      | nil => cases hlength
      | cons p ps => rfl

theorem joinParts (h : Writes b (cs, b') ps n) :
    Writes b ((joinParts cs).toList, b') (allPieces ps).toList n := by
  have hempty := h.isEmpty_eq
  cases ps with
  | nil =>
      obtain rfl := List.isEmpty_iff.mp hempty
      exact h
  | cons p ps =>
      have hjoin : Catalog.joinParts cs =
          some ⟨join " AND ".toList (cs.map (·.sql)), (cs.map (·.leafCount)).sum⟩ := by
        rw [Catalog.joinParts, if_neg]
        rw [hempty]
        exact Bool.false_ne_true
      rw [hjoin]
      refine ⟨?_, ?_, ?_⟩
      · have hsql : cs.map (·.sql) = (p :: ps).map Piece.text := h.sql
        show [join " AND ".toList (cs.map (·.sql))] = [(Piece.allOf p ps).text]
        rw [hsql, text_allOf]
      · rw [paramsOf_toList_allPieces]
        exact h.nextBinding
      · show (cs.map (·.leafCount)).sum + 0 = n
        exact h.leaves

/-- The pieces of a child that must not hold. -/
theorem not (h : Writes b (cs, b') ps n) :
    Writes b (cs.map fun c ↦ ⟨"NOT (".toList ++ c.sql ++ ")".toList, c.leafCount⟩, b')
      (ps.map Piece.not) n where
  sql := by
    have hsql := congrArg (List.map fun t ↦ "NOT (".toList ++ t ++ ")".toList) h.sql
    rw [List.map_map, List.map_map] at hsql ⊢
    refine Eq.trans ?_ (hsql.trans ?_)
    · exact congrArg (List.map · cs) rfl
    · exact congrArg (List.map · ps) (funext fun p ↦ (text_not p).symm)
  nextBinding := by
    rw [paramsOf_map Piece.params_not]
    exact h.nextBinding
  leaves := by
    rw [List.map_map]
    exact h.leaves

theorem joinCompiled {joiner : Text} {piece : Option Piece} (h : Writes b (cs, b') ps n)
    (hnone : ps = [] → piece = none)
    (hsome : ps ≠ [] → ∃ p, piece = some p ∧ p.text = join joiner (ps.map Piece.text))
    (hparams : paramsOf (piece.toList.map Piece.paren) = paramsOf ps) :
    Writes b (joinCompiled joiner cs, b') (piece.toList.map Piece.paren) n := by
  have hempty := h.isEmpty_eq
  by_cases hps : ps = []
  · subst hps
    obtain rfl := List.isEmpty_iff.mp hempty
    rw [hnone rfl]
    exact h
  · obtain ⟨p, rfl, htext⟩ := hsome hps
    have hjoin : Catalog.joinCompiled joiner cs =
        [⟨"(".toList ++ join joiner (cs.map (·.sql)) ++ ")".toList,
          (cs.map (·.leafCount)).sum⟩] := by
      rw [Catalog.joinCompiled, if_neg]
      rw [hempty, List.isEmpty_iff]
      exact hps
    rw [hjoin]
    refine ⟨?_, ?_, ?_⟩
    · have hsql : cs.map (·.sql) = ps.map Piece.text := h.sql
      show ["(".toList ++ join joiner (cs.map (·.sql)) ++ ")".toList] = [p.paren.text]
      rw [hsql, text_paren, htext]
    · rw [hparams]
      exact h.nextBinding
    · show (cs.map (·.leafCount)).sum + 0 = n
      exact h.leaves

theorem groupAll {groups : List (List Piece)}
    (h : Writes b (cs, b') (groups.filterMap allPieces) n) :
    Writes b (Catalog.joinCompiled " AND ".toList cs, b') (groupAll groups) n := by
  refine h.joinCompiled (fun hnil ↦ ?_) (fun hne ↦ ?_) ?_
  · rw [filterMap_allPieces_eq_nil.mp hnil]
    rfl
  · rw [ne_eq, filterMap_allPieces_eq_nil] at hne
    obtain ⟨p, ps, hps⟩ := List.exists_cons_of_ne_nil hne
    rw [join_filterMap_allPieces, hps]
    exact ⟨_, rfl, text_allOf p ps⟩
  · rw [paramsOf_filterMap_allPieces]
    exact paramsOf_groupAll groups

theorem groupAny {groups : List (List Piece)}
    (h : Writes b (cs, b') (groups.filterMap allPieces) n) :
    Writes b (Catalog.joinCompiled " OR ".toList cs, b') (groupAny groups) n := by
  refine h.joinCompiled (fun hnil ↦ ?_) (fun hne ↦ ?_) ?_
  · rw [anyPieces, hnil]
  · obtain ⟨p, ps, hps⟩ := List.exists_cons_of_ne_nil hne
    rw [anyPieces, hps]
    exact ⟨_, rfl, text_anyOf p ps⟩
  · rw [paramsOf_filterMap_allPieces]
    exact paramsOf_groupAny groups

end Writes

theorem joinParts_singleton (c : CompiledPredicate) : joinParts [c] = some c := by
  have hsql : join " AND ".toList [c.sql] = c.sql := List.intercalate_singleton
  show some (CompiledPredicate.mk (join " AND ".toList [c.sql]) (c.leafCount + 0)) = some c
  rw [hsql]
  rfl

section Compile

variable {R : Rendering} {find : Lookup} {columns : List ColumnCatalogEntry}

theorem compileLeaf_writes {leaf : LeafPredicate} {b : Binder} {o : CompiledPredicate × Binder}
    (h : compileLeaf R find columns leaf b = .ok o) :
    Writes b ([o.1], o.2) (leafPieces R find columns leaf) 1 := by
  unfold compileLeaf at h
  unfold leafPieces
  cases hcolumn : find leaf.column columns with
  | none => simp [hcolumn] at h
  | some column =>
      cases hop : sqlOperator leaf.op with
      | none => simp [hcolumn, hop] at h
      | some op =>
          simp only [hcolumn, hop, Except.ok.injEq] at h
          subst h
          have hknown : op.IsKnown := ⟨leaf.op, hop⟩
          refine ⟨?_, ?_, rfl⟩
          · exact congrArg (List.cons · []) (compileOperator_text hknown column _ b)
          · exact compileOperator_nextBinding column _ b hknown

mutual

/-- The SQL of a tree is the text of its pieces. -/
theorem compilePredicate_writes : ∀ (p : PredicateAst) {b : Binder}
    {o : Option CompiledPredicate × Binder}, compilePredicate R find columns p b = .ok o →
      Writes b (o.1.toList, o.2) (allPieces (piecesOf R find columns p)).toList
        (countPredicateLeaves p)
  | .compound and or not, b, o, h => by
      unfold compilePredicate at h
      obtain ⟨a₁, hand, h⟩ := bind_eq_ok_iff.mp h
      obtain ⟨a₂, hor, h⟩ := bind_eq_ok_iff.mp h
      obtain ⟨a₃, hnot, h⟩ := bind_eq_ok_iff.mp h
      obtain rfl := pure_eq_ok_iff.mp h
      have hall := (compileMany_writes and hand).groupAll
      have hany := (compileMany_writes or hor).groupAny
      have hparts := (hall.append hany).append (compileNot_writes not hnot)
      rw [piecesOf, countPredicateLeaves]
      exact hparts.joinParts
  | .leaf leaf, b, o, h => by
      unfold compilePredicate at h
      obtain ⟨a, hleaf, h⟩ := bind_eq_ok_iff.mp h
      obtain rfl := pure_eq_ok_iff.mp h
      have hwrites := (compileLeaf_writes hleaf).joinParts
      rw [joinParts_singleton] at hwrites
      rw [piecesOf, countPredicateLeaves]
      exact hwrites

theorem compileMany_writes : ∀ (ps : List PredicateAst) {b : Binder}
    {o : List CompiledPredicate × Binder}, compileMany R find columns ps b = .ok o →
      Writes b o ((groupsOf R find columns ps).filterMap allPieces) (countLeaves ps)
  | [], b, o, h => by
      unfold compileMany at h
      obtain rfl := pure_eq_ok_iff.mp h
      rw [groupsOf, countLeaves]
      exact ⟨rfl, rfl, rfl⟩
  | p :: ps, b, o, h => by
      unfold compileMany at h
      obtain ⟨a₁, hp, h⟩ := bind_eq_ok_iff.mp h
      obtain ⟨a₂, hps, h⟩ := bind_eq_ok_iff.mp h
      obtain rfl := pure_eq_ok_iff.mp h
      have hcons : (groupsOf R find columns (p :: ps)).filterMap allPieces =
          (allPieces (piecesOf R find columns p)).toList ++
            (groupsOf R find columns ps).filterMap allPieces := by
        rw [groupsOf, List.filterMap_cons]
        cases allPieces (piecesOf R find columns p) with
        | none => rfl
        | some q => rfl
      rw [hcons, countLeaves]
      exact (compilePredicate_writes p hp).append (compileMany_writes ps hps)

theorem compileNot_writes : ∀ (p : Option PredicateAst) {b : Binder}
    {o : List CompiledPredicate × Binder}, compileNot R find columns p b = .ok o →
      Writes b o (notPieces R find columns p) (countLeavesNot p)
  | none, b, o, h => by
      unfold compileNot at h
      obtain rfl := pure_eq_ok_iff.mp h
      rw [notPieces, countLeavesNot]
      exact ⟨rfl, rfl, rfl⟩
  | some p, b, o, h => by
      unfold compileNot at h
      obtain ⟨a, hp, h⟩ := bind_eq_ok_iff.mp h
      obtain rfl := pure_eq_ok_iff.mp h
      rw [notPieces, countLeavesNot]
      exact (compilePredicate_writes p hp).not

end

end Compile

end FrankenSnowflake.Catalog
