import FrankenSnowflake.Catalog.SqlText
import FrankenSnowflake.Foundation.Digits

/-!
# Bindings of a plan

Values are bound one after the other, by one operation.  What that operation keeps is
kept by the axis filters, by the compiler and by the limit.
-/

namespace FrankenSnowflake.Catalog

open Foundation Digits

/-! ## What every push keeps -/

/-- Binding one more value keeps a property. -/
def Kept (P : Binder → Prop) : Prop :=
  ∀ (b : Binder) (dtype : DtypeClass) (value : Text), P b → P (pushBinding b dtype value).2

namespace Kept

variable {P : Binder → Prop} {R : Rendering} {find : Lookup} {manifest : DatasetManifest}
  {columns : List ColumnCatalogEntry} {request : DatasetQueryRequest} {b : Binder}

theorem pushBindings (hP : Kept P) (dtype : DtypeClass) {values : List Text} (hb : P b) :
    P (pushBindings b dtype values).2 := by
  induction values generalizing b with
  | nil => exact hb
  | cons value values ih => exact ih (hP b dtype value hb)

theorem compileOperator (hP : Kept P) (column : ColumnCatalogEntry) (values : List Text)
    (operator : SqlOperator) (hb : P b) : P (compileOperator column values b operator).2 := by
  cases operator with
  | compare symbol => exact hP _ _ _ hb
  | between => exact hP _ _ _ (hP _ _ _ hb)
  | «in» => exact hP.pushBindings _ hb
  | isNull => exact hb
  | isNotNull => exact hb
  | contains => exact hP _ _ _ hb

theorem compileLeaf (hP : Kept P) {leaf : LeafPredicate} {o : CompiledPredicate × Binder}
    (h : compileLeaf R find columns leaf b = .ok o) (hb : P b) : P o.2 := by
  unfold Catalog.compileLeaf at h
  cases hcolumn : find leaf.column columns with
  | none => simp [hcolumn] at h
  | some column =>
      cases hoperator : sqlOperator leaf.op with
      | none => simp [hcolumn, hoperator] at h
      | some operator =>
          simp only [hcolumn, hoperator, Except.ok.injEq] at h
          subst h
          exact hP.compileOperator _ _ _ hb

mutual

theorem compilePredicate (hP : Kept P) : ∀ (p : PredicateAst) {b : Binder}
    {o : Option CompiledPredicate × Binder},
    compilePredicate R find columns p b = .ok o → P b → P o.2
  | .compound and or not, b, o, h, hb => by
      unfold Catalog.compilePredicate at h
      obtain ⟨a₁, hand, h⟩ := bind_eq_ok_iff.mp h
      obtain ⟨a₂, hor, h⟩ := bind_eq_ok_iff.mp h
      obtain ⟨a₃, hnot, h⟩ := bind_eq_ok_iff.mp h
      obtain rfl := pure_eq_ok_iff.mp h
      exact compileNot hP not hnot (compileMany hP or hor (compileMany hP and hand hb))
  | .leaf leaf, b, o, h, hb => by
      unfold Catalog.compilePredicate at h
      obtain ⟨a, hleaf, h⟩ := bind_eq_ok_iff.mp h
      obtain rfl := pure_eq_ok_iff.mp h
      exact hP.compileLeaf hleaf hb

theorem compileMany (hP : Kept P) : ∀ (ps : List PredicateAst) {b : Binder}
    {o : List CompiledPredicate × Binder},
    compileMany R find columns ps b = .ok o → P b → P o.2
  | [], b, o, h, hb => by
      unfold Catalog.compileMany at h
      obtain rfl := pure_eq_ok_iff.mp h
      exact hb
  | p :: ps, b, o, h, hb => by
      unfold Catalog.compileMany at h
      obtain ⟨a₁, hp, h⟩ := bind_eq_ok_iff.mp h
      obtain ⟨a₂, hps, h⟩ := bind_eq_ok_iff.mp h
      obtain rfl := pure_eq_ok_iff.mp h
      show P a₂.2
      exact compileMany hP ps hps (compilePredicate hP p hp hb)

theorem compileNot (hP : Kept P) : ∀ (p : Option PredicateAst) {b : Binder}
    {o : List CompiledPredicate × Binder},
    compileNot R find columns p b = .ok o → P b → P o.2
  | none, b, o, h, hb => by
      unfold Catalog.compileNot at h
      obtain rfl := pure_eq_ok_iff.mp h
      exact hb
  | some p, b, o, h, hb => by
      unfold Catalog.compileNot at h
      obtain ⟨a, hp, h⟩ := bind_eq_ok_iff.mp h
      obtain rfl := pure_eq_ok_iff.mp h
      exact compilePredicate hP p hp hb

end

theorem compileFilter (hP : Kept P) {o : Option CompiledPredicate × Binder}
    (h : compileFilter R find columns request b = .ok o) (hb : P b) : P o.2 := by
  unfold Catalog.compileFilter at h
  cases hfilter : request.filter with
  | none =>
      rw [hfilter] at h
      obtain rfl := Except.ok.inj h
      exact hb
  | some predicate =>
      rw [hfilter] at h
      exact hP.compilePredicate predicate h hb

theorem axisFilter (hP : Kept P) (value : Option Text) (role : FieldRole) (symbol : Text)
    (hb : P b) : P (axisFilter find manifest columns value role symbol b).2 := by
  unfold Catalog.axisFilter
  cases value with
  | none => exact hb
  | some value =>
      cases axisColumn find manifest columns role with
      | none => exact hb
      | some column => exact hP _ _ _ hb

theorem addAxisFilters (hP : Kept P) (hb : P b) :
    P (addAxisFilters find manifest columns request b).2 :=
  hP.axisFilter _ _ _ (hP.axisFilter _ _ _ (hP.axisFilter _ _ _ hb))

end Kept

/-! ## Earlier bindings -/

/-- The bindings at the positions of `b` are the same in `b'`. -/
structure Binder.Extends (b b' : Binder) : Prop where
  le : b.nextBinding ≤ b'.nextBinding
  get? : ∀ n < b.nextBinding, b'.bindings.get? (Nat.toDigits 10 n) =
    b.bindings.get? (Nat.toDigits 10 n)

theorem Binder.Extends.refl (b : Binder) : b.Extends b := ⟨le_refl _, fun _ _ ↦ rfl⟩

theorem kept_extends (b : Binder) : Kept b.Extends := by
  intro b' dtype value h
  refine ⟨h.le.trans (Nat.le_succ _), fun n hn ↦ ?_⟩
  have hne : Nat.toDigits 10 n ≠ Nat.toDigits 10 b'.nextBinding :=
    fun heq ↦ absurd (toDigits_injective heq) (hn.trans_le h.le).ne
  unfold pushBinding
  rw [SortedMap.get?_insert, if_neg hne, h.get? n hn]

/-- The binding that a push writes. -/
theorem pushBinding_get? (b : Binder) (dtype : DtypeClass) (value : Text) :
    ∃ binding, (pushBinding b dtype value).2.bindings.get? (Nat.toDigits 10 b.nextBinding) =
      some binding ∧ binding.value.length = value.length := by
  unfold pushBinding
  refine ⟨_, by rw [SortedMap.get?_insert, if_pos rfl], ?_⟩
  split_ifs
  · exact List.length_map _
  · rfl

/-! ## Entries -/

/-- A position without a colon and a type without an equals sign. -/
def IsBindingEntry (entry : Text × TypedBinding) : Prop :=
  ':' ∉ entry.1 ∧ '=' ∉ entry.2.bindingType

theorem kept_isBindingEntry : Kept fun b ↦ ∀ e ∈ b.bindings.entries, IsBindingEntry e := by
  intro b dtype value h e he
  rcases SortedMap.mem_insertEntry he with rfl | he
  · constructor
    · intro hmem
      have hdigit := Nat.isDigit_of_mem_toDigits (by decide) (by decide) hmem
      exact absurd hdigit (by decide)
    · show '=' ∉ sqlApiBindingType dtype value
      unfold sqlApiBindingType
      split_ifs <;> decide
  · exact h e he

end FrankenSnowflake.Catalog
