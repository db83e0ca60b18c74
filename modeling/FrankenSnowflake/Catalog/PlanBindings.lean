import FrankenSnowflake.Catalog.PlanWhere

/-!
# The bindings of a plan

The keys of the bindings are the numbers of the placeholders: every placeholder has a
value, and every value a placeholder.  The last one is the row limit.
-/

namespace FrankenSnowflake.Catalog

open Foundation SqlLexer SqlCondition Digits

/-! ## Placeholders -/

/-- The placeholders among the tokens of a text. -/
def placeholderCount (sql : Text) : Nat := (significantContent sql).count (.symbol, ['?'])

theorem count_contentOf (ps : List SqlPart) :
    (contentOf ps).count (.symbol, ['?']) = placeholders ps := by
  induction ps with
  | nil => rfl
  | cons p ps ih =>
      cases p with
      | blank | gap => exact ih
      | placeholder =>
          have hcount : placeholders (.placeholder :: ps) = placeholders ps + 1 :=
            List.count_cons_self
          rw [hcount, ← ih]
          exact List.count_cons_self
      | mark m =>
          have hcount : placeholders (.mark m :: ps) = placeholders ps :=
            List.count_cons_of_ne (by simp)
          rw [hcount, ← ih]
          refine List.count_cons_of_ne fun h ↦ ?_
          cases m <;> cases h
      | zero | keyword | identifier | literal =>
          rw [placeholders, List.count_cons_of_ne (by simp), ← placeholders, ← ih]
          exact List.count_cons_of_ne fun h ↦ by cases h

theorem placeholderCount_partsText {ps : List SqlPart} (h : ps.IsChain SqlPart.Linked) :
    placeholderCount (partsText ps) = placeholders ps := by
  rw [placeholderCount, significantContent_lexemes, lexemes_partsText h]
  exact count_contentOf ps

theorem placeholders_whereParts (ps : List Piece) : placeholders (whereParts ps) = paramsOf ps := by
  have hparams := paramsOf_toList_allPieces ps
  rw [whereParts]
  cases hall : allPieces ps with
  | none =>
      rw [hall] at hparams
      exact hparams
  | some p =>
      rw [hall] at hparams
      rw [← hparams]
      show placeholders (SqlPart.blank :: .keyword .where :: .blank :: p.parts) = p.params + 0
      rw [Nat.add_zero, Piece.params, placeholders, List.count_cons_of_ne (by simp),
        List.count_cons_of_ne (by simp), List.count_cons_of_ne (by simp), placeholders]

/-! ## Numbers -/

/-- The keys are the numbers below the next one. -/
def Numbered (b : Binder) : Prop :=
  0 < b.nextBinding ∧ ∀ key, (b.bindings.get? key).isSome ↔
    ∃ i, 1 ≤ i ∧ i < b.nextBinding ∧ key = Nat.toDigits 10 i

theorem numbered_new : Numbered .new := by
  refine ⟨Nat.one_pos, fun key ↦ iff_of_false Bool.false_ne_true ?_⟩
  rintro ⟨i, hi, hi', -⟩
  exact absurd hi (Nat.not_le.mpr hi')

theorem kept_numbered : Kept Numbered := by
  intro b dtype value h
  refine ⟨Nat.succ_pos _, fun key ↦ ?_⟩
  unfold pushBinding
  rw [SortedMap.get?_insert]
  by_cases hkey : key = Nat.toDigits 10 b.nextBinding
  · rw [if_pos hkey]
    exact iff_of_true rfl ⟨_, h.1, Nat.lt_succ_self _, hkey⟩
  · rw [if_neg hkey, h.2 key]
    constructor
    · rintro ⟨i, hi, hi', rfl⟩
      exact ⟨i, hi, hi'.trans (Nat.lt_succ_self _), rfl⟩
    · rintro ⟨i, hi, hi', rfl⟩
      refine ⟨i, hi, (Nat.lt_succ_iff_lt_or_eq.mp hi').resolve_right fun heq ↦ ?_, rfl⟩
      exact hkey (congrArg _ heq)

/-! ## Types -/

/-- The value is what its type says. -/
structure TypedBinding.Fits (t : TypedBinding) : Prop where
  known : t.bindingType ∈ ["FIXED", "BOOLEAN", "TEXT"].map String.toList
  fixed : t.bindingType = "FIXED".toList → isIntegerLiteral t.value
  boolean : t.bindingType = "BOOLEAN".toList →
    t.value = "true".toList ∨ t.value = "false".toList

theorem sqlApiBindingType_cases (dtype : DtypeClass) (value : Text) :
    (sqlApiBindingType dtype value = "FIXED".toList ∧ isIntegerLiteral value) ∨
      (sqlApiBindingType dtype value = "BOOLEAN".toList ∧
        (Ascii.lower value = "true".toList ∨ Ascii.lower value = "false".toList)) ∨
      sqlApiBindingType dtype value = "TEXT".toList := by
  unfold sqlApiBindingType
  split_ifs with hnumber hboolean
  · exact .inl ⟨rfl, hnumber.2⟩
  · exact .inr (.inl ⟨rfl, hboolean.2⟩)
  · exact .inr (.inr rfl)

theorem typedBinding_eq {dtype : DtypeClass} {value bindingType : Text}
    (h : sqlApiBindingType dtype value = bindingType) : typedBinding dtype value =
      ⟨bindingType, if bindingType = "BOOLEAN".toList then Ascii.lower value else value⟩ := by
  rw [typedBinding, h]

theorem fits_typedBinding (dtype : DtypeClass) (value : Text) : (typedBinding dtype value).Fits := by
  have hfixed : "FIXED".toList ≠ "BOOLEAN".toList := by decide
  rcases sqlApiBindingType_cases dtype value with ⟨h, hvalue⟩ | ⟨h, hvalue⟩ | h
  · rw [typedBinding_eq h, if_neg hfixed]
    exact ⟨List.mem_map_of_mem (by decide), fun _ ↦ hvalue, fun heq ↦ absurd heq hfixed⟩
  · rw [typedBinding_eq h, if_pos rfl]
    exact ⟨List.mem_map_of_mem (by decide), fun heq ↦ absurd heq.symm hfixed, fun _ ↦ hvalue⟩
  · have htext : "TEXT".toList ≠ "BOOLEAN".toList := by decide
    have htext' : "TEXT".toList ≠ "FIXED".toList := by decide
    rw [typedBinding_eq h, if_neg htext]
    exact ⟨List.mem_map_of_mem (by decide), fun heq ↦ absurd heq htext',
      fun heq ↦ absurd heq htext⟩

theorem kept_fits : Kept fun b ↦ ∀ e ∈ b.bindings.entries, e.2.Fits := by
  intro b dtype value h e he
  rcases SortedMap.mem_insertEntry he with rfl | he
  · exact fits_typedBinding dtype value
  · exact h e he

theorem isIntegerLiteral_toDigits (n : Nat) : isIntegerLiteral (Nat.toDigits 10 n) := by
  have hdigits : ∀ c ∈ Nat.toDigits 10 n, c.isDigit :=
    fun _ hc ↦ Nat.isDigit_of_mem_toDigits (by decide) (by decide) hc
  have hhead : (Nat.toDigits 10 n).head? ≠ some '-' := fun h ↦
    absurd (hdigits '-' (List.mem_of_mem_head? h)) (by decide)
  have hne : Nat.toDigits 10 n ≠ [] := Nat.toDigits_ne_nil
  rw [isIntegerLiteral, if_neg hhead, Bool.and_eq_true, List.all_eq_true, Bool.not_eq_true',
    List.isEmpty_eq_false_iff]
  exact ⟨hne, hdigits⟩

theorem typedBinding_limit (n : Nat) :
    typedBinding .number (Nat.toDigits 10 n) = ⟨"FIXED".toList, Nat.toDigits 10 n⟩ := by
  have htype : sqlApiBindingType .number (Nat.toDigits 10 n) = "FIXED".toList :=
    if_pos ⟨rfl, isIntegerLiteral_toDigits n⟩
  have hfixed : "FIXED".toList ≠ "BOOLEAN".toList := by decide
  rw [typedBinding_eq htype, if_neg hfixed]

/-! ## The bindings of a plan -/

section Plan

variable {R : Rendering} {find : Lookup} {manifest : DatasetManifest}
  {columns : List ColumnCatalogEntry} {operators : List OperatorCatalogEntry}
  {request : DatasetQueryRequest} {compiled : Option CompiledPredicate × Binder}
  {plan : QueryPlan} {P : Binder → Prop}

/-- What every push keeps holds of the bindings behind the limit. -/
theorem Planned.of_kept (h : Planned R find manifest columns operators request compiled plan)
    (hP : Kept P) (hnew : P .new) :
    P (pushBinding compiled.2 .number (Nat.toDigits 10 (effectiveLimit manifest request))).2 :=
  hP _ _ _ (hP.compileFilter h.filter (hP.addAxisFilters hnew))

theorem Planned.nextBinding_eq
    (h : Planned R find manifest columns operators request compiled plan) :
    compiled.2.nextBinding = placeholderCount plan.sql := by
  rw [h.sql_eq, placeholderCount_partsText (fragment_planParts ..).chain, planParts, placeholders_append,
    placeholders_append, placeholders_of_isBefore (isBefore_selectParts _ _ _),
    placeholders_whereParts, planPieces, paramsOf_append, compileFilter_nextBinding h.filter,
    addAxisFilters_nextBinding, Nat.zero_add]
  have hnew : Binder.new.nextBinding = 1 := rfl
  have hlimit : placeholders limitParts = 1 := rfl
  rw [hnew, hlimit, Nat.add_comm _ 1, Nat.add_assoc]

theorem mem_entries_of_get? {m : SortedMap Text TypedBinding} {key : Text} {t : TypedBinding}
    (h : m.get? key = some t) : (key, t) ∈ m.entries := SortedMap.mem_entries.mpr h

variable (R) in
/-- The bindings of an accepted plan are numbered as its placeholders are, each has a
value of its type, and the last one is the row limit. -/
theorem planDatasetQuery_binds
    (h : planDatasetQuery R manifest columns operators request = .ok plan) :
    (∀ key, (plan.bindings.get? key).isSome ↔
      ∃ i, 1 ≤ i ∧ i ≤ placeholderCount plan.sql ∧ key = Nat.toDigits 10 i) ∧
    (∀ key t, plan.bindings.get? key = some t → t.Fits) ∧
    plan.bindings.get? (Nat.toDigits 10 (placeholderCount plan.sql)) =
      some ⟨"FIXED".toList, Nat.toDigits 10 (request.limit.getD manifest.defaultLimit)⟩ := by
  obtain ⟨compiled, hplanned⟩ := exists_planned h
  have hcount := hplanned.nextBinding_eq
  have hnumbered := hplanned.of_kept kept_numbered numbered_new
  have hfits := hplanned.of_kept kept_fits (List.forall_mem_nil _)
  rw [hplanned.bindings]
  refine ⟨fun key ↦ ?_, fun key t ht ↦ hfits _ (mem_entries_of_get? ht), ?_⟩
  · rw [hnumbered.2 key, ← hcount]
    exact exists_congr fun i ↦ and_congr_right fun _ ↦ and_congr_left fun _ ↦ Nat.lt_succ_iff
  · rw [← hcount, ← effectiveLimit, ← typedBinding_limit]
    show (compiled.2.bindings.insert _ (typedBinding _ _)).get? _ = _
    rw [SortedMap.get?_insert, if_pos rfl]

end Plan

/-- Four values of the filter and the limit are bound. -/
theorem planDatasetQuery_binds_exampleFilter :
    ∃ plan, planDatasetQuery asciiRendering (exampleManifest ["A"]) (exampleColumns ["A"])
        builtInOperatorCatalog (exampleRequest ["A"] exampleFilter) = .ok plan ∧
      plan.bindings.get? (Nat.toDigits 10 (placeholderCount plan.sql)) =
        some ⟨"FIXED".toList, "5".toList⟩ := by
  obtain ⟨plan, hplan, -⟩ := exists_ok_of_map planDatasetQuery_exampleFilter
  exact ⟨plan, hplan, (planDatasetQuery_binds asciiRendering hplan).2.2⟩

end FrankenSnowflake.Catalog

