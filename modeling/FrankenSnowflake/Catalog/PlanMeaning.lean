import FrankenSnowflake.Catalog.PlanFilter

/-!
# What a filter means

A leaf compares the value of its column with its bound values, in the three-valued
logic of SQL; a compound asks for all of its first children, one of its second
children, and not its last child.  The pieces of a tree say what the tree means.
-/

namespace FrankenSnowflake.Catalog

open Foundation SqlLexer SqlCondition

/-! ## Bindings -/

/-- What a value that is compared with a column of a class is bound as. -/
def typedBinding (dtype : DtypeClass) (value : Text) : TypedBinding :=
  let bindingType := sqlApiBindingType dtype value
  ⟨bindingType, if bindingType = "BOOLEAN".toList then Ascii.lower value else value⟩

/-- The binding of the placeholder with a number. -/
def bindingAt (bindings : SortedMap Text TypedBinding) (i : Nat) : TypedBinding :=
  (bindings.get? (Nat.toDigits 10 i)).getD ⟨[], []⟩

theorem bindingAt_pushBinding (b : Binder) (dtype : DtypeClass) (value : Text) :
    bindingAt (pushBinding b dtype value).2.bindings b.nextBinding = typedBinding dtype value := by
  rw [bindingAt, pushBinding]
  show ((b.bindings.insert _ (typedBinding dtype value)).get? _).getD _ = _
  rw [SortedMap.get?_insert, if_pos rfl]
  rfl

theorem Binder.Extends.bindingAt {b b' : Binder} (h : b.Extends b') {i : Nat}
    (hi : i < b.nextBinding) : bindingAt b'.bindings i = bindingAt b.bindings i := by
  rw [Catalog.bindingAt, Catalog.bindingAt, h.get? i hi]

theorem extends_pushBinding (b : Binder) (dtype : DtypeClass) (value : Text) :
    b.Extends (pushBinding b dtype value).2 := kept_extends b b dtype value (.refl b)

section Meaning

variable {V : Type} (I : Interpretation V) (row : Text → V) (value : TypedBinding → V)

/-- What an operator says of a value of a column and of bound values. -/
def SqlOperator.holds (x : V) (bound : Text → V) (values : List Text) : SqlOperator → Truth
  | compare symbol => I.compare symbol x (bound (firstValue values))
  | between => Truth.and (I.compare ">=" x (bound (valueAt values 0)))
      (I.compare "<=" x (bound (valueAt values 1)))
  | «in» => Truth.any (values.map fun v ↦ I.compare "=" x (bound v))
  | isNull => some (I.isNull x)
  | isNotNull => some (!I.isNull x)
  | contains => I.compare ">" (I.position (bound (firstValue values)) x) (I.number ['0'])

variable (R : Rendering) (find : Lookup) (columns : List ColumnCatalogEntry)

def leafMeaning (leaf : LeafPredicate) : Truth :=
  match find leaf.column columns, sqlOperator leaf.op with
  | some column, some op =>
      op.holds I (row column.column) (fun v ↦ value (typedBinding column.dtypeClass v))
        (valueStrings R leaf.value)
  | _, _ => none

mutual

/-- What a tree says of a row. -/
def meaning : PredicateAst → Truth
  | .compound and or not =>
      Truth.and (Truth.and (Truth.all (meanings and))
          (if or.isEmpty then some true else Truth.any (meanings or)))
        (notMeaning not)
  | .leaf leaf => leafMeaning I row value R find columns leaf

def meanings : List PredicateAst → List Truth
  | [] => []
  | p :: ps => meaning p :: meanings ps

def notMeaning : Option PredicateAst → Truth
  | none => some true
  | some p => (meaning p).not

end

end Meaning

/-! ## Trees with leaves -/

mutual

/-- Every compound of the tree has a leaf under each of its children. -/
def Leafy : PredicateAst → Prop
  | .compound and or not => LeafyChildren and ∧ LeafyChildren or ∧ LeafyNot not
  | .leaf _ => True

def LeafyChildren : List PredicateAst → Prop
  | [] => True
  | p :: ps => (0 < countPredicateLeaves p ∧ Leafy p) ∧ LeafyChildren ps

def LeafyNot : Option PredicateAst → Prop
  | none => True
  | some p => 0 < countPredicateLeaves p ∧ Leafy p

end

/-! ## What an operator says -/

section Operators

variable {V : Type} {I : Interpretation V} {row : Text → V} {value : TypedBinding → V}
  {params : Nat → V}

/-- The parameters from one number up to another are the bindings. -/
def Bound (params : Nat → V) (value : TypedBinding → V) (b b' : Binder) : Prop :=
  ∀ i, b.nextBinding ≤ i → i < b'.nextBinding → params i = value (bindingAt b'.bindings i)

theorem Bound.left {b b' b'' : Binder} (h : Bound params value b b'') (hextends : b'.Extends b'') :
    Bound params value b b' := by
  intro i hi hi'
  rw [h i hi (hi'.trans_le hextends.le), hextends.bindingAt hi']

theorem Bound.right {b b' b'' : Binder} (h : Bound params value b b'')
    (hextends : b.Extends b') : Bound params value b' b'' :=
  fun i hi hi' ↦ h i (hextends.le.trans hi) hi'

theorem Bound.push {b b' : Binder} {dtype : DtypeClass} {v : Text} (h : Bound params value b b')
    (hextends : (pushBinding b dtype v).2.Extends b') :
    params b.nextBinding = value (typedBinding dtype v) := by
  rw [h.left hextends _ (le_refl _) (Nat.lt_succ_self _), bindingAt_pushBinding]

theorem Bound.pushes {dtype : DtypeClass} {values : List Text} {b : Binder}
    (h : Bound params value b (pushBindings b dtype values).2) :
    (List.range' b.nextBinding values.length).map params =
      values.map fun v ↦ value (typedBinding dtype v) := by
  induction values generalizing b with
  | nil => rfl
  | cons v values ih =>
      have hextends : (pushBinding b dtype v).2.Extends
          (pushBindings (pushBinding b dtype v).2 dtype values).2 :=
        (kept_extends _).pushBindings dtype (.refl _)
      have hfirst := h.push hextends
      have hrest := ih (h.right (extends_pushBinding b dtype v))
      rw [List.length_cons, List.range'_succ, List.map_cons, List.map_cons, hfirst]
      exact congrArg _ hrest

/-- The piece of an operator says what the operator says. -/
theorem eval_piece (op : SqlOperator) (column : ColumnCatalogEntry) (values : List Text)
    (b : Binder) (h : Bound params value b (compileOperator column values b op).2) :
    ((op.piece column.column values.length).cond b.nextBinding).eval I row params =
      op.holds I (row column.column) (fun v ↦ value (typedBinding column.dtypeClass v)) values := by
  cases op with
  | compare symbol =>
      have hparam := h.push (.refl _)
      exact congrArg (I.compare symbol (row column.column)) hparam
  | between =>
      have hextends := extends_pushBinding (pushBinding b column.dtypeClass (valueAt values 0)).2
        column.dtypeClass (valueAt values 1)
      have hleft := h.push hextends
      have hright := (h.right (extends_pushBinding b _ _)).push (.refl _)
      exact congrArg₂ (fun l r ↦ Truth.and (I.compare ">=" (row column.column) l)
        (I.compare "<=" (row column.column) r)) hleft hright
  | «in» =>
      have hparams := Bound.pushes h
      show Truth.any (((List.range' b.nextBinding values.length).map
        fun i ↦ Operand.atom (.param i)).map fun item ↦
          I.compare "=" (row column.column) (item.value I row params)) = _
      have hitems := congrArg (List.map (I.compare "=" (row column.column))) hparams
      rw [List.map_map, List.map_map] at hitems
      rw [List.map_map]
      exact congrArg Truth.any hitems
  | isNull | isNotNull => rfl
  | contains =>
      have hparam := h.push (.refl _)
      exact congrArg (fun v ↦ I.compare ">" (I.position v (row column.column)) (I.number ['0']))
        hparam

end Operators

/-! ## What groups say -/

section Groups

variable {V : Type} {I : Interpretation V} {row : Text → V} {params : Nat → V}

/-- What pieces say together, numbered from a number on. -/
def truthOf (I : Interpretation V) (row : Text → V) (params : Nat → V) (k : Nat)
    (ps : List Piece) : Truth :=
  Truth.all ((numbered k ps).map (Cond.eval I row params))

/-- What each of the groups says. -/
def truthsOf (I : Interpretation V) (row : Text → V) (params : Nat → V) : Nat →
    List (List Piece) → List Truth
  | _, [] => []
  | k, group :: groups => truthOf I row params k group :: truthsOf I row params (k + paramsOf group) groups

@[simp] theorem truthOf_nil (k : Nat) : truthOf I row params k [] = some true := rfl

theorem truthOf_append (k : Nat) (ps qs : List Piece) :
    truthOf I row params k (ps ++ qs) =
      Truth.and (truthOf I row params k ps) (truthOf I row params (k + paramsOf ps) qs) := by
  rw [truthOf, numbered_append, List.map_append, Truth.all_append]
  rfl

theorem truthOf_singleton (k : Nat) (p : Piece) :
    truthOf I row params k [p] = (p.cond k).eval I row params := Truth.and_true _

theorem truthOf_flatten (k : Nat) (groups : List (List Piece)) :
    truthOf I row params k groups.flatten = Truth.all (truthsOf I row params k groups) := by
  induction groups generalizing k with
  | nil => rfl
  | cons group groups ih =>
      rw [List.flatten_cons, truthOf_append, ih]
      rfl

theorem eval_allOf (k : Nat) (p : Piece) (ps : List Piece) :
    ((Piece.allOf p ps).cond k).eval I row params = truthOf I row params k (p :: ps) :=
  eval_conjoin I row params _ _

theorem truthOf_groupAll (k : Nat) (groups : List (List Piece)) :
    truthOf I row params k (groupAll groups) = Truth.all (truthsOf I row params k groups) := by
  rw [← truthOf_flatten, groupAll]
  cases groups.flatten with
  | nil => rfl
  | cons p ps =>
      rw [← eval_allOf]
      exact truthOf_singleton k _

/-- Children that have pieces say what they say as one piece each. -/
theorem map_eval_allPieces {k : Nat} {groups : List (List Piece)} (h : ∀ group ∈ groups, group ≠ []) :
    (numbered k (groups.filterMap allPieces)).map (Cond.eval I row params) =
      truthsOf I row params k groups := by
  induction groups generalizing k with
  | nil => rfl
  | cons group groups ih =>
      obtain ⟨hgroup, hgroups⟩ := List.forall_mem_cons.mp h
      obtain ⟨p, ps, rfl⟩ := List.exists_cons_of_ne_nil hgroup
      have hcons : ((p :: ps) :: groups).filterMap allPieces =
          Piece.allOf p ps :: groups.filterMap allPieces := rfl
      rw [hcons, numbered, List.map_cons, eval_allOf, ih hgroups, Piece.params_allOf]
      rfl

theorem truthOf_groupAny {k : Nat} {groups : List (List Piece)}
    (h : ∀ group ∈ groups, group ≠ []) :
    truthOf I row params k (groupAny groups) =
      if groups.isEmpty then some true else Truth.any (truthsOf I row params k groups) := by
  have heval := @map_eval_allPieces V I row params k groups h
  rw [groupAny, anyPieces]
  cases groups with
  | nil => rfl
  | cons group groups =>
      obtain ⟨hgroup, -⟩ := List.forall_mem_cons.mp h
      obtain ⟨p, ps, rfl⟩ := List.exists_cons_of_ne_nil hgroup
      have hcons : ((p :: ps) :: groups).filterMap allPieces =
          Piece.allOf p ps :: groups.filterMap allPieces := rfl
      rw [hcons] at heval ⊢
      rw [← heval]
      refine (truthOf_singleton k _).trans ?_
      exact eval_disjoin I row params _ _

theorem truthOf_not {k : Nat} {ps : List Piece} (h : ps ≠ []) :
    truthOf I row params k ((allPieces ps).toList.map Piece.not) = (truthOf I row params k ps).not := by
  obtain ⟨p, ps, rfl⟩ := List.exists_cons_of_ne_nil h
  rw [← eval_allOf]
  exact truthOf_singleton k _

end Groups

/-! ## What a tree says -/

section Compile

variable {V : Type} {I : Interpretation V} {row : Text → V} {value : TypedBinding → V}
  {params : Nat → V} {R : Rendering} {find : Lookup} {columns : List ColumnCatalogEntry}

/-- A child with a leaf has pieces. -/
theorem piecesOf_ne_nil {p : PredicateAst} {b : Binder} {o : Option CompiledPredicate × Binder}
    (h : compilePredicate R find columns p b = .ok o) (hleaves : 0 < countPredicateLeaves p) :
    piecesOf R find columns p ≠ [] := by
  intro hnil
  have hwrites := compilePredicate_writes p h
  have hsql := hwrites.sql
  rw [hnil] at hsql
  have hnone := List.map_eq_nil_iff.mp hsql
  have hcount := hwrites.leaves
  rw [hnone] at hcount
  exact absurd hcount hleaves.ne

theorem nextBinding_compilePredicate {p : PredicateAst} {b : Binder}
    {o : Option CompiledPredicate × Binder} (h : compilePredicate R find columns p b = .ok o) :
    o.2.nextBinding = b.nextBinding + paramsOf (piecesOf R find columns p) := by
  have hwrites := (compilePredicate_writes p h).nextBinding
  rwa [paramsOf_toList_allPieces] at hwrites

theorem nextBinding_compileMany {ps : List PredicateAst} {b : Binder}
    {o : List CompiledPredicate × Binder} (h : compileMany R find columns ps b = .ok o) :
    o.2.nextBinding = b.nextBinding + paramsOf (groupsOf R find columns ps).flatten := by
  have hwrites := (compileMany_writes ps h).nextBinding
  rwa [paramsOf_filterMap_allPieces] at hwrites

theorem isEmpty_groupsOf (ps : List PredicateAst) :
    (groupsOf R find columns ps).isEmpty = ps.isEmpty := by
  cases ps with
  | nil =>
      rw [groupsOf]
      rfl
  | cons p ps =>
      rw [groupsOf]
      rfl

theorem truthOf_leafPieces {leaf : LeafPredicate} {b : Binder} {o : CompiledPredicate × Binder}
    (h : compileLeaf R find columns leaf b = .ok o) (hbound : Bound params value b o.2) :
    truthOf I row params b.nextBinding (leafPieces R find columns leaf) =
      leafMeaning I row value R find columns leaf := by
  unfold compileLeaf at h
  unfold leafPieces leafMeaning
  cases hcolumn : find leaf.column columns with
  | none => simp [hcolumn] at h
  | some column =>
      cases hop : sqlOperator leaf.op with
      | none => simp [hcolumn, hop] at h
      | some op =>
          simp only [hcolumn, hop, Except.ok.injEq] at h
          subst h
          exact (truthOf_singleton _ _).trans (eval_piece op column _ b hbound)

mutual

/-- The pieces of a tree say what the tree says. -/
theorem truthOf_piecesOf : ∀ (p : PredicateAst) {b : Binder}
    {o : Option CompiledPredicate × Binder}, compilePredicate R find columns p b = .ok o →
      Leafy p → Bound params value b o.2 →
        truthOf I row params b.nextBinding (piecesOf R find columns p) =
          meaning I row value R find columns p
  | .compound and or not, b, o, h, hleafy, hbound => by
      unfold compilePredicate at h
      obtain ⟨a₁, hand, h⟩ := bind_eq_ok_iff.mp h
      obtain ⟨a₂, hor, h⟩ := bind_eq_ok_iff.mp h
      obtain ⟨a₃, hnot, h⟩ := bind_eq_ok_iff.mp h
      obtain rfl := pure_eq_ok_iff.mp h
      rw [Leafy] at hleafy
      obtain ⟨hleafyAnd, hleafyOr, hleafyNot⟩ := hleafy
      have hextendsOr : a₁.2.Extends a₂.2 := (kept_extends _).compileMany or hor (.refl _)
      have hextendsNot : a₂.2.Extends a₃.2 := (kept_extends _).compileNot not hnot (.refl _)
      have hextendsAnd : b.Extends a₁.2 := (kept_extends _).compileMany and hand (.refl _)
      have hrest : Bound params value a₁.2 a₃.2 := hbound.right hextendsAnd
      have hall := (truthsOf_groupsOf and hand hleafyAnd
        ((hbound.left hextendsNot).left hextendsOr)).1
      have hany := truthsOf_groupsOf or hor hleafyOr (hrest.left hextendsNot)
      have hchild := truthOf_notPieces not hnot hleafyNot (hrest.right hextendsOr)
      have hnextOr : b.nextBinding + paramsOf (groupAll (groupsOf R find columns and)) =
          a₁.2.nextBinding := by
        rw [paramsOf_groupAll, nextBinding_compileMany hand]
      have hnextNot : a₁.2.nextBinding + paramsOf (groupAny (groupsOf R find columns or)) =
          a₂.2.nextBinding := by
        rw [paramsOf_groupAny, nextBinding_compileMany hor]
      rw [piecesOf, truthOf_append, truthOf_append, paramsOf_append, ← Nat.add_assoc, hnextOr,
        hnextNot, truthOf_groupAll, hall, truthOf_groupAny hany.2, hany.1, hchild,
        isEmpty_groupsOf, meaning]
  | .leaf leaf, b, o, h, _, hbound => by
      unfold compilePredicate at h
      obtain ⟨a, hleaf, h⟩ := bind_eq_ok_iff.mp h
      obtain rfl := pure_eq_ok_iff.mp h
      rw [piecesOf, meaning]
      exact truthOf_leafPieces hleaf hbound

theorem truthsOf_groupsOf : ∀ (ps : List PredicateAst) {b : Binder}
    {o : List CompiledPredicate × Binder}, compileMany R find columns ps b = .ok o →
      LeafyChildren ps → Bound params value b o.2 →
        truthsOf I row params b.nextBinding (groupsOf R find columns ps) =
            meanings I row value R find columns ps ∧
          ∀ group ∈ groupsOf R find columns ps, group ≠ []
  | [], b, o, h, _, _ => by
      rw [groupsOf, meanings]
      exact ⟨rfl, List.forall_mem_nil _⟩
  | p :: ps, b, o, h, hleafy, hbound => by
      unfold compileMany at h
      obtain ⟨a₁, hp, h⟩ := bind_eq_ok_iff.mp h
      obtain ⟨a₂, hps, h⟩ := bind_eq_ok_iff.mp h
      obtain rfl := pure_eq_ok_iff.mp h
      rw [LeafyChildren] at hleafy
      obtain ⟨⟨hleaves, hleafyFirst⟩, hleafyRest⟩ := hleafy
      have hextends : a₁.2.Extends a₂.2 := (kept_extends _).compileMany ps hps (.refl _)
      have hextends' : b.Extends a₁.2 := (kept_extends _).compilePredicate p hp (.refl _)
      have hfirst := truthOf_piecesOf p hp hleafyFirst (hbound.left hextends)
      obtain ⟨hrest, hne⟩ := truthsOf_groupsOf ps hps hleafyRest (hbound.right hextends')
      rw [groupsOf, meanings, truthsOf, ← nextBinding_compilePredicate hp, hfirst, hrest]
      exact ⟨rfl, List.forall_mem_cons.mpr ⟨piecesOf_ne_nil hp hleaves, hne⟩⟩

theorem truthOf_notPieces : ∀ (p : Option PredicateAst) {b : Binder}
    {o : List CompiledPredicate × Binder}, compileNot R find columns p b = .ok o →
      LeafyNot p → Bound params value b o.2 →
        truthOf I row params b.nextBinding (notPieces R find columns p) =
          notMeaning I row value R find columns p
  | none, b, o, h, _, _ => by
      rw [notPieces, notMeaning]
      rfl
  | some p, b, o, h, hleafy, hbound => by
      unfold compileNot at h
      obtain ⟨a, hp, h⟩ := bind_eq_ok_iff.mp h
      obtain rfl := pure_eq_ok_iff.mp h
      rw [LeafyNot] at hleafy
      rw [notPieces, notMeaning, truthOf_not (piecesOf_ne_nil hp hleafy.1),
        truthOf_piecesOf p hp hleafy.2 hbound]

end

end Compile

end FrankenSnowflake.Catalog
