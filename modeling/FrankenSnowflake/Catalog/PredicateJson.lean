import FrankenSnowflake.Catalog.SqlText

/-!
# Predicates as JSON

A predicate is an untagged tree: an object is read as a compound if it can be,
else as a leaf.  Unknown fields are ignored, so the object of a leaf can be read
as a compound.
-/

namespace FrankenSnowflake.Catalog

open Foundation

/-! ## Writing -/

def LeafPredicate.toJson (leaf : LeafPredicate) : JsonValue :=
  .object ([("column".toList, .string leaf.column), ("op".toList, .string leaf.op)] ++
    leaf.value.toList.map fun value ↦ ("value".toList, value))

/-- An entry of children, left out where there are none. -/
def childrenEntry (key : String) (children : List JsonValue) : List (Text × JsonValue) :=
  if children.isEmpty then [] else [(key.toList, .array children)]

mutual

def PredicateAst.toJson : PredicateAst → JsonValue
  | .leaf leaf => leaf.toJson
  | .compound and or not => .object (childrenEntry "and" (toJsonItems and) ++
      childrenEntry "or" (toJsonItems or) ++
      (toJsonNot not).toList.map fun child ↦ ("not".toList, child))

def toJsonItems : List PredicateAst → List JsonValue
  | [] => []
  | predicate :: predicates => predicate.toJson :: toJsonItems predicates

def toJsonNot : Option PredicateAst → Option JsonValue
  | none => none
  | some predicate => some predicate.toJson

end

/-! ## Reading -/

def isNull : JsonValue → Bool
  | .null => true
  | .bool _ | .number _ | .string _ | .array _ | .object _ => false

/-- The fields of a compound that have been read. -/
structure CompoundFields where
  and : Option (List PredicateAst)
  or : Option (List PredicateAst)
  not : Option (Option PredicateAst)

def CompoundFields.build (fields : CompoundFields) : PredicateAst :=
  .compound (fields.and.getD []) (fields.or.getD []) (fields.not.getD none)

/-- The fields of a leaf that have been read. -/
structure LeafFields where
  column : Option Text
  op : Option Text
  value : Option (Option JsonValue)

/-- Read the entries of a leaf; no field stands there twice. -/
def leafEntries (fields : LeafFields) : List (Text × JsonValue) → Option LeafFields
  | [] => some fields
  | (key, value) :: entries =>
      if key = "column".toList then do
        if fields.column.isSome then none
        leafEntries { fields with column := some (← value.asStr?) } entries
      else if key = "op".toList then do
        if fields.op.isSome then none
        leafEntries { fields with op := some (← value.asStr?) } entries
      else if key = "value".toList then do
        if fields.value.isSome then none
        leafEntries { fields with value := some (if isNull value then none else some value) } entries
      else leafEntries fields entries

/-- Read a leaf, by name or by position. -/
def LeafPredicate.fromJson : JsonValue → Option LeafPredicate
  | .object entries => do
      let fields ← leafEntries ⟨none, none, none⟩ entries
      return ⟨← fields.column, ← fields.op, fields.value.getD none⟩
  | .array [column, op] => do return ⟨← column.asStr?, ← op.asStr?, none⟩
  | .array [column, op, value] => do
      return ⟨← column.asStr?, ← op.asStr?, if isNull value then none else some value⟩
  | .array _ | .null | .bool _ | .number _ | .string _ => none

mutual

/-- Read a predicate: a compound, else a leaf. -/
def PredicateAst.fromJson : JsonValue → Option PredicateAst
  | .object entries =>
      ((compoundEntries ⟨none, none, none⟩ entries).map CompoundFields.build).or
        ((LeafPredicate.fromJson (.object entries)).map .leaf)
  | .array items =>
      (compoundItems items).or ((LeafPredicate.fromJson (.array items)).map .leaf)
  | .null | .bool _ | .number _ | .string _ => none

/-- Read children. -/
def childrenFromJson : JsonValue → Option (List PredicateAst)
  | .array items => itemsFromJson items
  | .null | .bool _ | .number _ | .string _ | .object _ => none

def itemsFromJson : List JsonValue → Option (List PredicateAst)
  | [] => some []
  | item :: items => do return (← PredicateAst.fromJson item) :: (← itemsFromJson items)

/-- Read the entries of a compound; no field stands there twice, others are skipped. -/
def compoundEntries (fields : CompoundFields) : List (Text × JsonValue) → Option CompoundFields
  | [] => some fields
  | (key, value) :: entries =>
      if key = "and".toList then
        if fields.and.isSome then none
        else (childrenFromJson value).bind fun children ↦
          compoundEntries { fields with and := some children } entries
      else if key = "or".toList then
        if fields.or.isSome then none
        else (childrenFromJson value).bind fun children ↦
          compoundEntries { fields with or := some children } entries
      else if key = "not".toList then
        if fields.not.isSome then none
        else (if isNull value then some none else (PredicateAst.fromJson value).map some).bind
          fun child ↦ compoundEntries { fields with not := some child } entries
      else compoundEntries fields entries

/-- Read a compound by position; what is missing is left out. -/
def compoundItems : List JsonValue → Option PredicateAst
  | [] => some (.compound [] [] none)
  | [and] => do return .compound (← childrenFromJson and) [] none
  | [and, or] => do return .compound (← childrenFromJson and) (← childrenFromJson or) none
  | [and, or, not] => do
      let child ← if isNull not then some none else (PredicateAst.fromJson not).map some
      return .compound (← childrenFromJson and) (← childrenFromJson or) child
  | _ => none

end

mutual

/-- How deep arrays and objects are nested. -/
def nesting : JsonValue → Nat
  | .null | .bool _ | .number _ | .string _ => 0
  | .array items => nestingItems items + 1
  | .object entries => nestingEntries entries + 1

def nestingItems : List JsonValue → Nat
  | [] => 0
  | item :: items => max (nesting item) (nestingItems items)

def nestingEntries : List (Text × JsonValue) → Nat
  | [] => 0
  | (_, value) :: entries => max (nesting value) (nestingEntries entries)

end

/-- The levels that `serde_json` refuses to read. -/
def recursionLimit : Nat := 128

/-- `serde_json::from_str` of the text of a value, as `--filter` is read. -/
def readFilter (v : JsonValue) : Option PredicateAst :=
  if nesting v < recursionLimit then PredicateAst.fromJson v else none

/-! ## What is read of what is written -/

mutual

/-- A predicate with its leaves taken for compounds of nothing. -/
def PredicateAst.withoutLeaves : PredicateAst → PredicateAst
  | .leaf _ => .compound [] [] none
  | .compound and or not =>
      .compound (withoutLeavesItems and) (withoutLeavesItems or) (withoutLeavesNot not)

def withoutLeavesItems : List PredicateAst → List PredicateAst
  | [] => []
  | predicate :: predicates => predicate.withoutLeaves :: withoutLeavesItems predicates

def withoutLeavesNot : Option PredicateAst → Option PredicateAst
  | none => none
  | some predicate => some predicate.withoutLeaves

end

theorem compoundEntries_skip {key : Text} (h : key ∉ ["and".toList, "or".toList, "not".toList])
    (fields : CompoundFields) (value : JsonValue) (entries : List (Text × JsonValue)) :
    compoundEntries fields ((key, value) :: entries) = compoundEntries fields entries := by
  simp only [List.mem_cons, List.not_mem_nil, or_false, not_or] at h
  rw [compoundEntries, if_neg h.1, if_neg h.2.1, if_neg h.2.2]

theorem fromJson_leaf (leaf : LeafPredicate) :
    PredicateAst.fromJson leaf.toJson = some (.compound [] [] none) := by
  have hentries : ∀ entries : List (Text × JsonValue),
      (∀ e ∈ entries, e.1 ∉ ["and".toList, "or".toList, "not".toList]) →
      compoundEntries ⟨none, none, none⟩ entries = some ⟨none, none, none⟩ := by
    intro entries
    induction entries with
    | nil => exact fun _ ↦ rfl
    | cons e entries ih =>
        intro h
        rw [List.forall_mem_cons] at h
        rw [compoundEntries_skip h.1, ih h.2]
  rw [LeafPredicate.toJson, PredicateAst.fromJson, hentries]
  · rfl
  · intro e he
    simp only [List.mem_append, List.mem_cons, List.not_mem_nil, or_false, List.mem_map,
      Option.mem_toList] at he
    rcases he with (rfl | rfl) | ⟨value, -, rfl⟩ <;> simp

theorem isNull_toJson (predicate : PredicateAst) : isNull predicate.toJson = false := by
  cases predicate with
  | leaf leaf => rfl
  | compound and or not => rfl

/-- The entry of the children of a key, if the key has been read. -/
def childrenRead (children : List JsonValue) (read : List PredicateAst) : Option (List PredicateAst) :=
  if children.isEmpty then none else some read

theorem childrenRead_getD {children : List JsonValue} {read : List PredicateAst}
    (h : itemsFromJson children = some read) : (childrenRead children read).getD [] = read := by
  cases children with
  | nil => exact Option.some.inj h
  | cons child children => rfl

theorem compoundEntries_and {children : List JsonValue} {read : List PredicateAst}
    (h : itemsFromJson children = some read) (entries : List (Text × JsonValue)) :
    compoundEntries ⟨none, none, none⟩ (childrenEntry "and" children ++ entries) =
      compoundEntries ⟨childrenRead children read, none, none⟩ entries := by
  cases children with
  | nil => rfl
  | cons child children =>
      rw [childrenEntry, if_neg (by simp), List.singleton_append, compoundEntries, if_pos rfl,
        if_neg (by simp), childrenFromJson, h]
      rfl

theorem compoundEntries_or {and : Option (List PredicateAst)} {children : List JsonValue}
    {read : List PredicateAst} (h : itemsFromJson children = some read)
    (entries : List (Text × JsonValue)) :
    compoundEntries ⟨and, none, none⟩ (childrenEntry "or" children ++ entries) =
      compoundEntries ⟨and, childrenRead children read, none⟩ entries := by
  cases children with
  | nil => rfl
  | cons child children =>
      rw [childrenEntry, if_neg (by simp), List.singleton_append, compoundEntries,
        if_neg (by simp), if_pos rfl, if_neg (by simp), childrenFromJson, h]
      rfl

theorem compoundEntries_not {and or : Option (List PredicateAst)} {child : JsonValue}
    {read : PredicateAst} (hnull : isNull child = false) (h : PredicateAst.fromJson child = some read) :
    compoundEntries ⟨and, or, none⟩ [("not".toList, child)] = some ⟨and, or, some (some read)⟩ := by
  rw [compoundEntries, if_neg (by simp), if_neg (by simp), if_pos rfl, if_neg (by simp), hnull,
    if_neg (by simp), h]
  rfl

mutual

/-- What is written is read with its leaves taken for compounds of nothing. -/
theorem fromJson_toJson : ∀ predicate : PredicateAst,
    PredicateAst.fromJson predicate.toJson = some predicate.withoutLeaves
  | .leaf leaf => fromJson_leaf leaf
  | .compound and or none => by
      have hand := itemsFromJson_toJsonItems and
      have hor := itemsFromJson_toJsonItems or
      rw [PredicateAst.toJson, PredicateAst.fromJson, toJsonNot, Option.toList_none, List.map_nil,
        List.append_assoc, compoundEntries_and hand, compoundEntries_or hor, compoundEntries,
        Option.map_some, CompoundFields.build, childrenRead_getD hand, childrenRead_getD hor]
      rfl
  | .compound and or (some not) => by
      have hand := itemsFromJson_toJsonItems and
      have hor := itemsFromJson_toJsonItems or
      rw [PredicateAst.toJson, PredicateAst.fromJson, toJsonNot, Option.toList_some, List.map_cons,
        List.map_nil, List.append_assoc, compoundEntries_and hand, compoundEntries_or hor,
        compoundEntries_not (isNull_toJson not) (fromJson_toJson not), Option.map_some,
        CompoundFields.build, childrenRead_getD hand, childrenRead_getD hor]
      rfl

theorem itemsFromJson_toJsonItems : ∀ predicates : List PredicateAst,
    itemsFromJson (toJsonItems predicates) = some (withoutLeavesItems predicates)
  | [] => rfl
  | predicate :: predicates => by
      rw [toJsonItems, itemsFromJson, fromJson_toJson predicate,
        itemsFromJson_toJsonItems predicates]
      rfl

end

mutual

/-- Nothing is lost of a tree without leaves, and of no other. -/
theorem withoutLeaves_eq_self : ∀ predicate : PredicateAst,
    predicate.withoutLeaves = predicate ↔ countPredicateLeaves predicate = 0
  | .leaf leaf => iff_of_false nofun nofun
  | .compound and or none => by
      rw [PredicateAst.withoutLeaves, countPredicateLeaves, PredicateAst.compound.injEq,
        withoutLeavesItems_eq_self and, withoutLeavesItems_eq_self or, countLeavesNot,
        Nat.add_zero, Nat.add_eq_zero_iff, withoutLeavesNot, and_iff_left rfl]
  | .compound and or (some not) => by
      rw [PredicateAst.withoutLeaves, countPredicateLeaves, PredicateAst.compound.injEq,
        withoutLeavesItems_eq_self and, withoutLeavesItems_eq_self or, countLeavesNot,
        Nat.add_eq_zero_iff, Nat.add_eq_zero_iff, withoutLeavesNot, Option.some.injEq,
        withoutLeaves_eq_self not, and_assoc]

theorem withoutLeavesItems_eq_self : ∀ predicates : List PredicateAst,
    withoutLeavesItems predicates = predicates ↔ countLeaves predicates = 0
  | [] => iff_of_true rfl rfl
  | predicate :: predicates => by
      rw [withoutLeavesItems, countLeaves, List.cons.injEq, withoutLeaves_eq_self predicate,
        withoutLeavesItems_eq_self predicates, Nat.add_eq_zero_iff]

end

/-! ## Filters that mean what was written -/

theorem predicateFilters_of_planWith {R : Rendering} {find : Lookup} {manifest : DatasetManifest}
    {columns : List ColumnCatalogEntry} {operators : List OperatorCatalogEntry}
    {request : DatasetQueryRequest} {plan : QueryPlan}
    (h : planWith R find manifest columns operators request = .ok plan) :
    plan.pushdown.predicateFilters = request.filter.elim 0 countPredicateLeaves := by
  unfold planWith at h
  split_ifs at h with hid
  dsimp only at h
  split_ifs at h with haccepted
  cases hassemble : assemble R find manifest request (sortedDatasetColumns manifest.id columns)
      (checkRequest R find manifest (sortedDatasetColumns manifest.id columns) operators
        request).1 with
  | error refusal => simp [hassemble] at h
  | ok result =>
      obtain ⟨sql, bindings, pushdown⟩ := result
      simp only [hassemble] at h
      cases hguard : plannerGuardrails sql (effectiveLimit manifest request) request.exportMode
          request.warehouse (queryTag request) with
      | error refusal => simp [hguard] at h
      | ok guarded =>
          simp only [hguard, Except.ok.injEq] at h
          subst h
          obtain ⟨compiled, -, hresult⟩ := bind_eq_ok_iff.mp hassemble
          obtain ⟨-, hrest⟩ := Prod.mk.inj (pure_eq_ok_iff.mp hresult)
          obtain ⟨-, rfl⟩ := Prod.mk.inj hrest
          rfl

/-- A filter that is read as it was written, and whose leaves are all counted by a plan. -/
structure ReadAsWritten (predicate : PredicateAst) : Prop where
  reads : readFilter predicate.toJson = some predicate
  counted : ∀ read, readFilter predicate.toJson = some read →
    ∀ (R : Rendering) (manifest : DatasetManifest) (columns : List ColumnCatalogEntry)
      (operators : List OperatorCatalogEntry) (request : DatasetQueryRequest) (plan : QueryPlan),
      planDatasetQuery R manifest columns operators { request with filter := some read } = .ok plan →
        plan.pushdown.predicateFilters = countPredicateLeaves predicate

/-- A filter is read as it was written exactly when it has no leaf and is not nested too deep. -/
theorem readAsWritten_iff (predicate : PredicateAst) :
    ReadAsWritten predicate ↔
      countPredicateLeaves predicate = 0 ∧ nesting predicate.toJson < recursionLimit := by
  rw [← withoutLeaves_eq_self]
  constructor
  · rintro ⟨hreads, -⟩
    rw [readFilter] at hreads
    split_ifs at hreads with hnesting
    rw [fromJson_toJson, Option.some.injEq] at hreads
    exact ⟨hreads, hnesting⟩
  · rintro ⟨hself, hnesting⟩
    have hreads : readFilter predicate.toJson = some predicate := by
      rw [readFilter, if_pos hnesting, fromJson_toJson, hself]
    refine ⟨hreads, fun read hread R manifest columns operators request plan hplan ↦ ?_⟩
    cases hread.symm.trans hreads
    exact predicateFilters_of_planWith hplan

/-- The filter `a is_null`. -/
def isNullLeaf : PredicateAst := .leaf ⟨['a'], "is_null".toList, none⟩

/-- A single leaf is dropped, and the plan reads every row. -/
theorem not_readAsWritten_isNullLeaf :
    readFilter isNullLeaf.toJson = some (.compound [] [] none) ∧ ¬ ReadAsWritten isNullLeaf ∧
      ((planDatasetQuery asciiRendering (exampleManifest ["a"]) (exampleColumns ["a"])
        builtInOperatorCatalog (exampleRequest ["a"] (some (.compound [] [] none)))).toOption.map
          fun plan ↦ (plan.sql, plan.pushdown.predicateFilters)) =
            some ("SELECT \"a\" FROM \"D\".\"S\".\"T\" LIMIT ?".toList, 0) := by
  have hreads : readFilter isNullLeaf.toJson = some (.compound [] [] none) :=
    (if_pos (by decide +kernel)).trans (fromJson_leaf _)
  refine ⟨hreads, fun h ↦ ?_, by decide +kernel⟩
  cases hreads.symm.trans h.reads

end FrankenSnowflake.Catalog
