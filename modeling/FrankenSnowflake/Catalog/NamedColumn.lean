import FrankenSnowflake.Catalog.SqlText

/-!
# The column that a name names

Names are looked up by their normalised identifier, and the first column in ordinal
order is taken.  A name that is exactly the identifier of a column is looked up to
that column unless a column before it is normalised alike.
-/

namespace FrankenSnowflake.Catalog

open Foundation Template

variable {R : Rendering} {find find' : Lookup} {manifest : DatasetManifest}
  {columns : List ColumnCatalogEntry} {operators : List OperatorCatalogEntry}
  {request : DatasetQueryRequest}

/-! ## The names of a request -/

mutual

/-- The columns that the leaves of a tree name. -/
def leafColumns : PredicateAst → List Text
  | .compound and or not => leavesColumns and ++ leavesColumns or ++ leafColumnsNot not
  | .leaf leaf => [leaf.column]

def leavesColumns : List PredicateAst → List Text
  | [] => []
  | predicate :: predicates => leafColumns predicate ++ leavesColumns predicates

def leafColumnsNot : Option PredicateAst → List Text
  | none => []
  | some predicate => leafColumns predicate

end

/-- The names that the projection is made of. -/
def projectedNames (manifest : DatasetManifest) (request : DatasetQueryRequest) : List Text :=
  if request.select.isEmpty then manifest.fields.map (·.column) else request.select

/-- The column of a role. -/
def axisName (manifest : DatasetManifest) (role : FieldRole) : List Text :=
  (manifest.fieldByRole role).toList.map (·.column)

/-- Every name that a request has looked up. -/
def usedNames (manifest : DatasetManifest) (request : DatasetQueryRequest) : List Text :=
  projectedNames manifest request ++
    (if request.entity.isSome then axisName manifest .entityKey else []) ++
    (if request.«from».isSome ∨ request.«to».isSome then axisName manifest .timeIndex else []) ++
    request.filter.elim [] leafColumns

/-! ## Two lookups that give the same -/

/-- Two lookups give the same for some names. -/
def SameFor (find find' : Lookup) (columns : List ColumnCatalogEntry) (names : List Text) : Prop :=
  ∀ name ∈ names, find name columns = find' name columns

theorem resolveProjection_congr (h : SameFor find find' columns (projectedNames manifest request)) :
    resolveProjection R find manifest columns request =
      resolveProjection R find' manifest columns request := by
  unfold projectedNames at h
  unfold resolveProjection
  split_ifs at h ⊢ with hselect
  · have heq : (manifest.fields.filterMap fun field ↦ find field.column columns) =
        manifest.fields.filterMap fun field ↦ find' field.column columns :=
      List.filterMap_congr fun field hfield ↦ h _ (List.mem_map_of_mem hfield)
    simp only [heq]
  · have hfilterMap : (request.select.filterMap fun requested ↦ find requested columns) =
        request.select.filterMap fun requested ↦ find' requested columns :=
      List.filterMap_congr fun requested hmem ↦ h _ hmem
    have hfilter : (request.select.filter fun requested ↦ (find requested columns).isNone) =
        request.select.filter fun requested ↦ (find' requested columns).isNone :=
      List.filter_congr fun requested hmem ↦ by rw [h _ hmem]
    rw [hfilterMap, hfilter]

theorem validateAxis_congr {role : FieldRole} {roleName : Text}
    (h : SameFor find find' columns (axisName manifest role)) :
    validateAxis R find manifest columns role roleName =
      validateAxis R find' manifest columns role roleName := by
  unfold validateAxis
  cases hfield : manifest.fieldByRole role with
  | none => rfl
  | some field =>
      have heq : find field.column columns = find' field.column columns :=
        h _ (by simp [axisName, hfield])
      simp only [heq]

theorem validateLeaf_congr {leaf : LeafPredicate}
    (h : find leaf.column columns = find' leaf.column columns) :
    validateLeaf R find columns operators leaf = validateLeaf R find' columns operators leaf := by
  unfold validateLeaf
  simp only [h]

mutual

theorem validateNode_congr : ∀ p : PredicateAst, SameFor find find' columns (leafColumns p) →
    validateNode R find columns operators p = validateNode R find' columns operators p
  | .compound and or not, h => by
      unfold leafColumns at h
      simp only [SameFor, List.mem_append, or_imp, forall_and] at h
      obtain ⟨⟨hand, hor⟩, hnot⟩ := h
      rw [validateNode, validateNode, validateNodes_congr and hand, validateNodes_congr or hor,
        validateNot_congr not hnot]
  | .leaf leaf, h => by
      rw [validateNode, validateNode]
      exact validateLeaf_congr (h leaf.column (by simp [leafColumns]))

theorem validateNodes_congr : ∀ ps : List PredicateAst,
    SameFor find find' columns (leavesColumns ps) →
    validateNodes R find columns operators ps = validateNodes R find' columns operators ps
  | [], _ => by rw [validateNodes, validateNodes]
  | p :: ps, h => by
      unfold leavesColumns at h
      simp only [SameFor, List.mem_append, or_imp, forall_and] at h
      rw [validateNodes, validateNodes, validateNode_congr p h.1, validateNodes_congr ps h.2]

theorem validateNot_congr : ∀ p : Option PredicateAst,
    SameFor find find' columns (leafColumnsNot p) →
    validateNot R find columns operators p = validateNot R find' columns operators p
  | none, _ => by rw [validateNot, validateNot]
  | some p, h => by
      unfold leafColumnsNot at h
      rw [validateNot, validateNot, validateNode_congr p h]

end

theorem compileLeaf_congr {leaf : LeafPredicate} {b : Binder}
    (h : find leaf.column columns = find' leaf.column columns) :
    compileLeaf R find columns leaf b = compileLeaf R find' columns leaf b := by
  unfold compileLeaf
  rw [h]

mutual

theorem compilePredicate_congr : ∀ (p : PredicateAst) (b : Binder),
    SameFor find find' columns (leafColumns p) →
    compilePredicate R find columns p b = compilePredicate R find' columns p b
  | .compound and or not, b, h => by
      unfold leafColumns at h
      simp only [SameFor, List.mem_append, or_imp, forall_and] at h
      obtain ⟨⟨hand, hor⟩, hnot⟩ := h
      rw [compilePredicate, compilePredicate, compileMany_congr and b hand]
      simp only [fun b ↦ compileMany_congr or b hor, fun b ↦ compileNot_congr not b hnot]
  | .leaf leaf, b, h => by
      rw [compilePredicate, compilePredicate,
        compileLeaf_congr (h leaf.column (by simp [leafColumns]))]

theorem compileMany_congr : ∀ (ps : List PredicateAst) (b : Binder),
    SameFor find find' columns (leavesColumns ps) →
    compileMany R find columns ps b = compileMany R find' columns ps b
  | [], b, _ => by rw [compileMany, compileMany]
  | p :: ps, b, h => by
      unfold leavesColumns at h
      simp only [SameFor, List.mem_append, or_imp, forall_and] at h
      rw [compileMany, compileMany, compilePredicate_congr p b h.1]
      simp only [fun b ↦ compileMany_congr ps b h.2]

theorem compileNot_congr : ∀ (p : Option PredicateAst) (b : Binder),
    SameFor find find' columns (leafColumnsNot p) →
    compileNot R find columns p b = compileNot R find' columns p b
  | none, b, _ => by rw [compileNot, compileNot]
  | some p, b, h => by
      unfold leafColumnsNot at h
      rw [compileNot, compileNot, compilePredicate_congr p b h]

end

theorem axisColumn_congr {role : FieldRole}
    (h : SameFor find find' columns (axisName manifest role)) :
    axisColumn find manifest columns role = axisColumn find' manifest columns role := by
  unfold axisColumn
  cases hfield : manifest.fieldByRole role with
  | none => rfl
  | some field => exact h _ (by simp [axisName, hfield])

theorem axisFilter_congr {value : Option Text} {role : FieldRole} {symbol : Text} {b : Binder}
    (h : value.isSome → SameFor find find' columns (axisName manifest role)) :
    axisFilter find manifest columns value role symbol b =
      axisFilter find' manifest columns value role symbol b := by
  cases value with
  | none => rfl
  | some value =>
      unfold axisFilter
      rw [axisColumn_congr (h rfl)]

/-- The parts of `SameFor` over the names of a request. -/
structure SameForRequest (find find' : Lookup) (columns : List ColumnCatalogEntry)
    (manifest : DatasetManifest) (request : DatasetQueryRequest) : Prop where
  projection : SameFor find find' columns (projectedNames manifest request)
  entity : request.entity.isSome → SameFor find find' columns (axisName manifest .entityKey)
  time : request.«from».isSome ∨ request.«to».isSome →
    SameFor find find' columns (axisName manifest .timeIndex)
  filter : SameFor find find' columns (request.filter.elim [] leafColumns)

theorem sameFor_append {xs ys : List Text} : SameFor find find' columns (xs ++ ys) ↔
    SameFor find find' columns xs ∧ SameFor find find' columns ys := by
  simp only [SameFor, List.mem_append, or_imp, forall_and]

theorem sameFor_ite {used : Prop} [Decidable used] {names : List Text} :
    SameFor find find' columns (if used then names else []) ↔
      (used → SameFor find find' columns names) := by
  split_ifs with hused
  · exact ⟨fun h _ ↦ h, fun h ↦ h hused⟩
  · exact ⟨fun _ h ↦ absurd h hused, fun _ _ h ↦ absurd h List.not_mem_nil⟩

theorem sameForRequest_iff : SameFor find find' columns (usedNames manifest request) ↔
    SameForRequest find find' columns manifest request := by
  rw [usedNames, sameFor_append, sameFor_append, sameFor_append, sameFor_ite, sameFor_ite]
  constructor
  · rintro ⟨⟨⟨hprojection, hentity⟩, htime⟩, hfilter⟩
    exact ⟨hprojection, hentity, htime, hfilter⟩
  · rintro ⟨hprojection, hentity, htime, hfilter⟩
    exact ⟨⟨⟨hprojection, hentity⟩, htime⟩, hfilter⟩

namespace SameForRequest

theorem addAxisFilters (h : SameForRequest find find' columns manifest request) (b : Binder) :
    addAxisFilters find manifest columns request b =
      Catalog.addAxisFilters find' manifest columns request b := by
  have hstart : request.«from».isSome → SameFor find find' columns (axisName manifest .timeIndex) :=
    fun hv ↦ h.time (Or.inl hv)
  have hstop : request.«to».isSome → SameFor find find' columns (axisName manifest .timeIndex) :=
    fun hv ↦ h.time (Or.inr hv)
  unfold Catalog.addAxisFilters
  simp only [axisFilter_congr h.entity, axisFilter_congr hstart, axisFilter_congr hstop]

theorem validateAxes (h : SameForRequest find find' columns manifest request) :
    validateAxes R find manifest columns request =
      Catalog.validateAxes R find' manifest columns request := by
  unfold Catalog.validateAxes
  congr 2
  · split_ifs with hentity
    · exact validateAxis_congr (h.entity hentity)
    · rfl
  · split_ifs with htime
    · exact validateAxis_congr (h.time htime)
    · rfl

theorem checkRequest (h : SameForRequest find find' columns manifest request) :
    checkRequest R find manifest columns operators request =
      Catalog.checkRequest R find' manifest columns operators request := by
  have hfilter := h.filter
  unfold Catalog.checkRequest
  rw [resolveProjection_congr h.projection, h.validateAxes]
  cases hf : request.filter with
  | none => rfl
  | some predicate =>
      rw [hf] at hfilter
      simp only [validatePredicate, validateNode_congr predicate hfilter]

theorem compileFilter (h : SameForRequest find find' columns manifest request) (b : Binder) :
    compileFilter R find columns request b = Catalog.compileFilter R find' columns request b := by
  have hfilter := h.filter
  unfold Catalog.compileFilter
  cases hf : request.filter with
  | none => rfl
  | some predicate =>
      rw [hf] at hfilter
      exact compilePredicate_congr predicate b hfilter

/-- Lookups that give the same for the names of a request give the same plan. -/
theorem planWith
    (h : SameForRequest find find' (sortedDatasetColumns manifest.id columns) manifest request) :
    planWith R find manifest columns operators request =
      Catalog.planWith R find' manifest columns operators request := by
  unfold Catalog.planWith Catalog.assemble
  simp only [h.checkRequest, h.addAxisFilters, h.compileFilter]

end SameForRequest

/-! ## Texts for two lookups -/

/-- Two lookups give columns of one identifier. -/
def Alike (find find' : Lookup) (columns : List ColumnCatalogEntry) (name : Text) : Prop :=
  (find name columns).map (·.column) = (find' name columns).map (·.column)

/-- Two lookups find the same names. -/
def FindAlike (find find' : Lookup) (columns : List ColumnCatalogEntry) : Prop :=
  ∀ name, (find name columns).isSome = (find' name columns).isSome

theorem joinCompiled_agree {cs cs' : List CompiledPredicate} {Q : Prop} (joiner : Text)
    (h : AgreeAll (cs.map (·.sql)) (cs'.map (·.sql)) Q) :
    AgreeAll ((joinCompiled joiner cs).map (·.sql)) ((joinCompiled joiner cs').map (·.sql)) Q := by
  have hempty := h.isEmpty_eq
  rw [List.isEmpty_map, List.isEmpty_map] at hempty
  unfold joinCompiled
  rw [hempty]
  split_ifs with hcs
  · rw [List.isEmpty_iff.mp hcs, List.isEmpty_iff.mp (hempty.trans hcs)] at h
    exact h
  · refine .singleton ?_
    simp only [List.append_assoc]
    exact .append_left _ (.append_right (h.intercalate joiner) _)

theorem joinParts_agree {cs cs' : List CompiledPredicate} {Q : Prop}
    (h : AgreeAll (cs.map (·.sql)) (cs'.map (·.sql)) Q) :
    AgreeAll ((joinParts cs).toList.map (·.sql)) ((joinParts cs').toList.map (·.sql)) Q := by
  have hempty := h.isEmpty_eq
  rw [List.isEmpty_map, List.isEmpty_map] at hempty
  unfold joinParts
  rw [hempty]
  split_ifs with hcs
  · rw [List.isEmpty_iff.mp hcs, List.isEmpty_iff.mp (hempty.trans hcs)] at h
    exact h
  · exact .singleton (h.intercalate " AND ".toList)

theorem compileLeaf_agree {leaf : LeafPredicate} {b b' : Binder}
    {o o' : CompiledPredicate × Binder}
    (h : compileLeaf R find columns leaf b = .ok o)
    (h' : compileLeaf R find' columns leaf b' = .ok o') :
    Template.Agree o.1.sql o'.1.sql (Alike find find' columns leaf.column) := by
  unfold compileLeaf at h h'
  unfold Alike
  cases hc : find leaf.column columns with
  | none => simp [hc] at h
  | some c =>
      cases hc' : find' leaf.column columns with
      | none => simp [hc'] at h'
      | some c' =>
          cases hop : sqlOperator leaf.op with
          | none => simp [hc, hop] at h
          | some op =>
              simp only [hc, hop, Except.ok.injEq] at h
              simp only [hc', hop, Except.ok.injEq] at h'
              subst h h'
              refine (compileOperator_agree c c' _ b b' op).mono fun heq ↦ ?_
              rw [Option.map_some, Option.map_some, heq]

mutual

/-- The SQL of one tree for two lookups. -/
theorem compilePredicate_agree : ∀ (p : PredicateAst) {b b' : Binder}
    {o o' : Option CompiledPredicate × Binder},
    compilePredicate R find columns p b = .ok o → compilePredicate R find' columns p b' = .ok o' →
    AgreeAll (o.1.toList.map (·.sql)) (o'.1.toList.map (·.sql))
      (∀ name ∈ leafColumns p, Alike find find' columns name)
  | .compound and or not, b, b', o, o', h, h' => by
      unfold compilePredicate at h h'
      obtain ⟨a₁, hand, h⟩ := bind_eq_ok_iff.mp h
      obtain ⟨a₂, hor, h⟩ := bind_eq_ok_iff.mp h
      obtain ⟨a₃, hnot, h⟩ := bind_eq_ok_iff.mp h
      obtain ⟨c₁, hand', h'⟩ := bind_eq_ok_iff.mp h'
      obtain ⟨c₂, hor', h'⟩ := bind_eq_ok_iff.mp h'
      obtain ⟨c₃, hnot', h'⟩ := bind_eq_ok_iff.mp h'
      obtain rfl := pure_eq_ok_iff.mp h
      obtain rfl := pure_eq_ok_iff.mp h'
      refine (joinParts_agree (Q := ∀ name ∈ leafColumns (.compound and or not),
        Alike find find' columns name) ?_)
      rw [List.map_append, List.map_append, List.map_append, List.map_append]
      refine (((joinCompiled_agree _ (compileMany_agree and hand hand')).append
        (joinCompiled_agree _ (compileMany_agree or hor hor'))).append
          (compileNot_agree not hnot hnot')).mono ?_
      rintro ⟨⟨hand, hor⟩, hnot⟩ name hmem
      simp only [leafColumns, List.mem_append] at hmem
      rcases hmem with (hmem | hmem) | hmem
      · exact hand name hmem
      · exact hor name hmem
      · exact hnot name hmem
  | .leaf leaf, b, b', o, o', h, h' => by
      unfold compilePredicate at h h'
      obtain ⟨a, hleaf, h⟩ := bind_eq_ok_iff.mp h
      obtain ⟨a', hleaf', h'⟩ := bind_eq_ok_iff.mp h'
      obtain rfl := pure_eq_ok_iff.mp h
      obtain rfl := pure_eq_ok_iff.mp h'
      refine (AgreeAll.singleton (compileLeaf_agree hleaf hleaf')).mono fun hq name hmem ↦ ?_
      rw [leafColumns, List.mem_singleton] at hmem
      rwa [hmem]

theorem compileMany_agree : ∀ (ps : List PredicateAst) {b b' : Binder}
    {o o' : List CompiledPredicate × Binder},
    compileMany R find columns ps b = .ok o → compileMany R find' columns ps b' = .ok o' →
    AgreeAll (o.1.map (·.sql)) (o'.1.map (·.sql))
      (∀ name ∈ leavesColumns ps, Alike find find' columns name)
  | [], b, b', o, o', h, h' => by
      unfold compileMany at h h'
      obtain rfl := pure_eq_ok_iff.mp h
      obtain rfl := pure_eq_ok_iff.mp h'
      exact .nil fun name hmem ↦ absurd hmem (by simp [leavesColumns])
  | p :: ps, b, b', o, o', h, h' => by
      unfold compileMany at h h'
      obtain ⟨a₁, hp, h⟩ := bind_eq_ok_iff.mp h
      obtain ⟨a₂, hps, h⟩ := bind_eq_ok_iff.mp h
      obtain ⟨c₁, hp', h'⟩ := bind_eq_ok_iff.mp h'
      obtain ⟨c₂, hps', h'⟩ := bind_eq_ok_iff.mp h'
      obtain rfl := pure_eq_ok_iff.mp h
      obtain rfl := pure_eq_ok_iff.mp h'
      rw [List.map_append, List.map_append]
      refine ((compilePredicate_agree p hp hp').append (compileMany_agree ps hps hps')).mono ?_
      rintro ⟨hp, hps⟩ name hmem
      rw [leavesColumns, List.mem_append] at hmem
      exact hmem.elim (hp name) (hps name)

theorem compileNot_agree : ∀ (p : Option PredicateAst) {b b' : Binder}
    {o o' : List CompiledPredicate × Binder},
    compileNot R find columns p b = .ok o → compileNot R find' columns p b' = .ok o' →
    AgreeAll (o.1.map (·.sql)) (o'.1.map (·.sql))
      (∀ name ∈ leafColumnsNot p, Alike find find' columns name)
  | none, b, b', o, o', h, h' => by
      unfold compileNot at h h'
      obtain rfl := pure_eq_ok_iff.mp h
      obtain rfl := pure_eq_ok_iff.mp h'
      exact .nil fun name hmem ↦ absurd hmem (by simp [leafColumnsNot])
  | some p, b, b', o, o', h, h' => by
      unfold compileNot at h h'
      obtain ⟨a, hp, h⟩ := bind_eq_ok_iff.mp h
      obtain ⟨a', hp', h'⟩ := bind_eq_ok_iff.mp h'
      obtain rfl := pure_eq_ok_iff.mp h
      obtain rfl := pure_eq_ok_iff.mp h'
      have hagree := (compilePredicate_agree p hp hp').map
        (f := fun t ↦ "NOT (".toList ++ t ++ ")".toList) fun ht ↦
          (ht.append_left _).append_right _
      rw [List.map_map] at hagree ⊢
      rw [List.map_map] at hagree ⊢
      exact hagree

end

theorem axisFilter_agree {value : Option Text} {role : FieldRole} {symbol : Text} {b b' : Binder}
    (hfind : FindAlike find find' columns) :
    AgreeAll (axisFilter find manifest columns value role symbol b).1
      (axisFilter find' manifest columns value role symbol b').1
      (value.isSome → ∀ name ∈ axisName manifest role, Alike find find' columns name) := by
  cases value with
  | none => exact .nil nofun
  | some value =>
      unfold axisFilter axisColumn axisName
      cases hfield : manifest.fieldByRole role with
      | none => exact .nil fun _ name hmem ↦ absurd hmem (by simp)
      | some field =>
          have hsome := hfind field.column
          have halike : ∀ {P : Prop}, (P → Alike find find' columns field.column) → P →
              (some value).isSome → ∀ name ∈ (some field).toList.map (·.column),
                Alike find find' columns name := by
            intro P h hP _ name hmem
            rw [Option.toList_some, List.map_singleton, List.mem_singleton] at hmem
            rw [hmem]
            exact h hP
          cases hc : find field.column columns with
          | none =>
              have hc' : find' field.column columns = none := by
                rw [hc] at hsome
                simpa using hsome.symm
              simp only [Option.bind_some, hc, hc']
              exact .nil (halike (fun _ ↦ by rw [Alike, hc, hc']) trivial)
          | some c =>
              obtain ⟨c', hc'⟩ := Option.isSome_iff_exists.mp (hsome.symm.trans (by rw [hc]; rfl))
              simp only [Option.bind_some, hc, hc', pushBinding_fst, String.reduceToList,
                List.append_assoc, List.cons_append, List.nil_append]
              refine (AgreeAll.singleton (agree_quoteIdentifier (by decide))).mono
                (halike fun heq ↦ ?_)
              rw [Alike, hc, hc', Option.map_some, Option.map_some, heq]

theorem addAxisFilters_agree {b b' : Binder} (hfind : FindAlike find find' columns) :
    AgreeAll (addAxisFilters find manifest columns request b).1
      (addAxisFilters find' manifest columns request b').1
      ((request.entity.isSome → ∀ name ∈ axisName manifest .entityKey,
          Alike find find' columns name) ∧
        (request.«from».isSome ∨ request.«to».isSome → ∀ name ∈ axisName manifest .timeIndex,
          Alike find find' columns name)) := by
  refine (((axisFilter_agree hfind).append (axisFilter_agree hfind)).append
    (axisFilter_agree hfind)).mono ?_
  rintro ⟨⟨hentity, hstart⟩, hstop⟩
  exact ⟨hentity, fun h ↦ h.elim hstart hstop⟩

/-- The conditions are written alike only where the columns are. -/
theorem of_whereText_eq {cs cs' : List Text} {Q : Prop} (h : AgreeAll cs cs' Q)
    (heq : whereText cs = whereText cs') : Q := by
  cases h with
  | nil hQ => exact hQ
  | cons ht hts hS =>
      have hagree := (AgreeAll.cons ht hts hS).intercalate " AND ".toList
      exact hagree.of_eq (List.append_cancel_left heq)

/-- Names that are all found are found alike if what they are found to is. -/
theorem alike_of_filterMap {names : List Text} (hfind : FindAlike find find' columns)
    (hsome : ∀ name ∈ names, (find name columns).isSome)
    (heq : (names.filterMap (find · columns)).map (·.column) =
      (names.filterMap (find' · columns)).map (·.column)) :
    ∀ name ∈ names, Alike find find' columns name := by
  induction names with
  | nil => exact fun name hmem ↦ absurd hmem List.not_mem_nil
  | cons n names ih =>
      obtain ⟨hn, hnames⟩ := List.forall_mem_cons.mp hsome
      obtain ⟨c, hc⟩ := Option.isSome_iff_exists.mp hn
      obtain ⟨c', hc'⟩ := Option.isSome_iff_exists.mp ((hfind n).symm.trans hn)
      rw [List.filterMap_cons_some (f := (find · columns)) hc,
        List.filterMap_cons_some (f := (find' · columns)) hc', List.map_cons, List.map_cons] at heq
      obtain ⟨hhead, htail⟩ := List.cons.inj heq
      refine List.forall_mem_cons.mpr ⟨?_, ih hnames htail⟩
      rw [Alike, hc, hc', Option.map_some, Option.map_some, hhead]

/-- The projection is what the projected names are found to, if any is found. -/
theorem resolveProjection_fst {name : Text} (hmem : name ∈ projectedNames manifest request)
    (hsome : (find name columns).isSome) :
    (resolveProjection R find manifest columns request).1 =
      (projectedNames manifest request).filterMap (find · columns) := by
  obtain ⟨c, hc⟩ := Option.isSome_iff_exists.mp hsome
  have hne : (projectedNames manifest request).filterMap (find · columns) ≠ [] :=
    List.ne_nil_of_mem (List.mem_filterMap.mpr ⟨name, hmem, hc⟩)
  unfold resolveProjection
  unfold projectedNames at hne ⊢
  by_cases hselect : request.select.isEmpty
  · rw [if_pos hselect, List.filterMap_map] at hne
    rw [if_pos hselect, if_pos hselect, List.filterMap_map]
    exact if_neg fun hempty ↦ hne (List.isEmpty_iff.mp hempty)
  · rw [if_neg hselect, if_neg hselect]

/-- Every projected name of an accepted request is found. -/
theorem isSome_of_accepted
    (hfields : ∀ field ∈ manifest.fields, (find field.column columns).isSome)
    (h : (checkRequest R find manifest columns operators request).2 = []) :
    ∀ name ∈ projectedNames manifest request, (find name columns).isSome := by
  intro name hmem
  unfold projectedNames at hmem
  split_ifs at hmem with hselect
  · obtain ⟨field, hfield, rfl⟩ := List.mem_map.mp hmem
    exact hfields field hfield
  · have hrefusals : (resolveProjection R find manifest columns request).2 = [] :=
      (List.append_eq_nil_iff.mp (List.append_eq_nil_iff.mp (List.append_eq_nil_iff.mp h).1).1).1
    unfold resolveProjection at hrefusals
    rw [if_neg hselect, List.map_eq_nil_iff, List.filter_eq_nil_iff] at hrefusals
    simpa [Option.isNone_iff_eq_none, Option.isSome_iff_ne_none] using hrefusals name hmem

/-- The text up to the conditions determines the projected identifiers. -/
theorem selectFrom_append_inj {ps ps' : List ColumnCatalogEntry} {r r' : Text}
    (h : selectFrom manifest request ps ++ r = selectFrom manifest request ps' ++ r') :
    ps.map (·.column) = ps'.map (·.column) ∧ r = r' := by
  have hmap : ∀ qs : List ColumnCatalogEntry,
      (qs.map fun column ↦ quoteIdentifier column.column) =
        (qs.map (·.column)).map quoteIdentifier := by
    intro qs
    rw [List.map_map]
    rfl
  unfold selectFrom at h
  rw [hmap, hmap] at h
  simp only [List.append_assoc] at h
  rw [← List.append_assoc (join ", ".toList _), ← List.append_assoc (join ", ".toList _)] at h
  obtain ⟨hids, hrest⟩ := projection_append_inj (List.append_cancel_left h)
  exact ⟨hids, List.append_cancel_left (List.append_cancel_left hrest)⟩

/-- Two accepted plans with one text use columns of the same identifiers. -/
theorem alike_of_sql_eq {compiled compiled' : Option CompiledPredicate × Binder}
    {plan plan' : QueryPlan}
    (hfind : FindAlike find find' (sortedDatasetColumns manifest.id columns))
    (hfields : ∀ field ∈ manifest.fields,
      (find field.column (sortedDatasetColumns manifest.id columns)).isSome)
    (h : Planned R find manifest columns operators request compiled plan)
    (h' : Planned R find' manifest columns operators request compiled' plan')
    (heq : plan.sql = plan'.sql) :
    ∀ name ∈ usedNames manifest request,
      Alike find find' (sortedDatasetColumns manifest.id columns) name := by
  rw [h.sql, h'.sql] at heq
  have hfront := List.append_cancel_right (List.append_cancel_right heq)
  obtain ⟨hids, hwhere⟩ := selectFrom_append_inj hfront
  -- the projection
  have hprojected : ∀ name ∈ projectedNames manifest request,
      Alike find find' (sortedDatasetColumns manifest.id columns) name := by
    have hsome := isSome_of_accepted hfields h.accepted
    have hsome' : ∀ name ∈ projectedNames manifest request,
        (find' name (sortedDatasetColumns manifest.id columns)).isSome :=
      fun name hmem ↦ (hfind name).symm.trans (hsome name hmem)
    intro name hmem
    rw [resolveProjection_fst hmem (hsome name hmem),
      resolveProjection_fst hmem (hsome' name hmem)] at hids
    exact alike_of_filterMap hfind hsome hids name hmem
  -- the conditions
  have hfilter : AgreeAll (compiled.1.toList.map (·.sql)) (compiled'.1.toList.map (·.sql))
      (∀ name ∈ request.filter.elim [] leafColumns,
        Alike find find' (sortedDatasetColumns manifest.id columns) name) := by
    have hcompiled := h.filter
    have hcompiled' := h'.filter
    unfold compileFilter at hcompiled hcompiled'
    cases hf : request.filter with
    | none =>
        simp only [hf, Except.ok.injEq] at hcompiled hcompiled'
        subst hcompiled hcompiled'
        exact .nil fun name hmem ↦ absurd hmem List.not_mem_nil
    | some predicate =>
        simp only [hf] at hcompiled hcompiled'
        exact compilePredicate_agree predicate hcompiled hcompiled'
  obtain ⟨⟨hentity, htime⟩, hleaves⟩ :=
    of_whereText_eq ((addAxisFilters_agree hfind).append hfilter) hwhere
  intro name hmem
  simp only [usedNames, List.mem_append] at hmem
  rcases hmem with ((hmem | hmem) | hmem) | hmem
  · exact hprojected name hmem
  · split_ifs at hmem with hused
    · exact hentity hused name hmem
    · exact absurd hmem List.not_mem_nil
  · split_ifs at hmem with hused
    · exact htime hused name hmem
    · exact absurd hmem List.not_mem_nil
  · exact hleaves name hmem

/-! ## Exact names -/

/-- A name that is an identifier is looked up to its column, any other name as the
planner looks it up. -/
def exactColumn (R : Rendering) : Lookup := fun name columns ↦
  (columns.find? (·.column = name)).or (findColumnInRefs R name columns)

/-- No column before the one that is named is normalised like it. -/
def FirstAlike (R : Rendering) (columns : List ColumnCatalogEntry) (name : Text) : Prop :=
  ∀ before c after, columns = before ++ c :: after → c.column = name →
    ∀ c' ∈ before, normalizeIdentifier R.toLowercase c'.column ≠
      normalizeIdentifier R.toLowercase name

theorem mem_of_findColumnInRefs {name : Text} {c : ColumnCatalogEntry}
    (h : findColumnInRefs R name columns = some c) : c ∈ columns :=
  List.mem_of_find?_eq_some h

theorem exactColumn_eq_some {name : Text} {c : ColumnCatalogEntry}
    (h : exactColumn R name columns = some c) : c ∈ columns := by
  rcases Option.or_eq_some_iff.mp h with h | ⟨-, h⟩
  · exact List.mem_of_find?_eq_some h
  · exact mem_of_findColumnInRefs h

theorem findAlike_exactColumn (columns : List ColumnCatalogEntry) :
    FindAlike (findColumnInRefs R) (exactColumn R) columns := by
  intro name
  rw [exactColumn, Option.isSome_or]
  cases hexact : columns.find? (·.column = name) with
  | none => rfl
  | some c =>
      have hname : c.column = name := by simpa using List.find?_some hexact
      rw [Option.isSome_some, Bool.true_or]
      exact List.find?_isSome.mpr ⟨c, List.mem_of_find?_eq_some hexact, by simp [hname]⟩

/-- The planner finds the column that a name is the identifier of, if and only if no
column before it is normalised alike. -/
theorem findColumnInRefs_eq_exactColumn_iff {name : Text}
    (hids : (columns.map (·.column)).Nodup) :
    findColumnInRefs R name columns = exactColumn R name columns ↔
      FirstAlike R columns name := by
  constructor
  · intro h before c after hcolumns hname c' hc' halike
    have hexact : columns.find? (·.column = name) = some c := by
      rw [hcolumns, List.find?_append, List.find?_cons_of_pos (by simpa using hname)]
      have hnone : before.find? (·.column = name) = none := by
        rw [List.find?_eq_none]
        intro d hd hdname
        rw [hcolumns, List.map_append, List.map_cons] at hids
        refine (List.disjoint_of_nodup_append hids) (List.mem_map_of_mem hd) ?_
        rw [show d.column = c.column by rw [hname]; simpa using hdname]
        exact List.mem_cons_self
      rw [hnone]
      rfl
    rw [exactColumn, hexact, Option.some_or, hcolumns] at h
    unfold findColumnInRefs at h
    -- the column before is found first
    have hfound : (before.find? fun candidate ↦
        decide (normalizeIdentifier R.toLowercase candidate.column =
          normalizeIdentifier R.toLowercase name)).isSome :=
      List.find?_isSome.mpr ⟨c', hc', by simpa using halike⟩
    obtain ⟨d, hd⟩ := Option.isSome_iff_exists.mp hfound
    rw [List.find?_append, hd, Option.some_or] at h
    obtain rfl := Option.some.inj h
    rw [hcolumns, List.map_append, List.map_cons] at hids
    exact (List.disjoint_of_nodup_append hids) (List.mem_map_of_mem (List.mem_of_find?_eq_some hd))
      List.mem_cons_self
  · intro h
    rw [exactColumn]
    cases hexact : columns.find? (·.column = name) with
    | none => rfl
    | some c =>
        obtain ⟨hname, before, after, hcolumns, -⟩ := List.find?_eq_some_iff_append.mp hexact
        have hname : c.column = name := by simpa using hname
        refine List.find?_eq_some_iff_append.mpr ⟨by simp [hname], before, after, hcolumns, ?_⟩
        intro c' hc'
        simpa using h before c after hcolumns hname c' hc'

theorem findColumnInRefs_eq_exactColumn_of_alike {name : Text}
    (hids : (columns.map (·.column)).Nodup)
    (h : Alike (findColumnInRefs R) (exactColumn R) columns name) :
    findColumnInRefs R name columns = exactColumn R name columns := by
  unfold Alike at h
  cases hc : findColumnInRefs R name columns with
  | none =>
      rw [hc] at h
      exact (Option.map_eq_none_iff.mp h.symm).symm
  | some c =>
      rw [hc, Option.map_some] at h
      obtain ⟨c', hc', hcolumn⟩ := Option.map_eq_some_iff.mp h.symm
      rw [hc']
      exact congrArg some (List.inj_on_of_nodup_map hids (mem_of_findColumnInRefs hc)
        (exactColumn_eq_some hc') hcolumn.symm)

/-- Names that are found to columns of these names. -/
theorem map_column_filterMap {names : List Text}
    (h : ∀ name ∈ names, ∃ c, find name columns = some c ∧ c.column = name) :
    (names.filterMap (find · columns)).map (·.column) = names := by
  induction names with
  | nil => rfl
  | cons n names ih =>
      obtain ⟨⟨c, hc, hcolumn⟩, hnames⟩ := List.forall_mem_cons.mp h
      rw [List.filterMap_cons_some (f := (find · columns)) hc, List.map_cons, hcolumn, ih hnames]

/-! ## The plan -/

/-- The plan is that of a planner for which a name that is an identifier names its
column, and the default projection has the column of each field, in order. -/
structure NamesItsColumns (R : Rendering) (manifest : DatasetManifest)
    (columns : List ColumnCatalogEntry) (operators : List OperatorCatalogEntry)
    (request : DatasetQueryRequest) (plan : QueryPlan) : Prop where
  plan : planWith R (exactColumn R) manifest columns operators request = .ok plan
  fields : request.select = [] → manifest.fields ≠ [] →
    (resolveProjection R (findColumnInRefs R) manifest (sortedDatasetColumns manifest.id columns)
      request).1.map (·.column) = manifest.fields.map (·.column)

end FrankenSnowflake.Catalog
