import Mathlib.Data.List.Infix
import FrankenSnowflake.Catalog.Model
import FrankenSnowflake.Foundation.Ascii
import FrankenSnowflake.Foundation.Fallible
import Mathlib.Data.List.Forall2
import Mathlib.Data.List.Nodup

/-!
# Overlays of dataset manifests

An overlay assigns roles to columns of a dataset, one after another.  A role
that one column holds at a time is taken from the columns that discovery gave it
to.
-/

namespace FrankenSnowflake.Catalog

open Foundation

/-! ## Applying an entry -/

structure FieldOverlay where
  column : Text
  role : FieldRole
  required : Option Bool
deriving DecidableEq, Repr

/-- Corrections for one dataset; its target is found before they are applied. -/
structure DatasetOverlay where
  rightsClass : Option RightsClass
  defaultLimit : Option Nat
  maxRowsWithoutExport : Option Nat
  description : Option Text
  fields : List FieldOverlay
deriving DecidableEq, Repr

inductive OverlayError where
  | unknownColumn (datasetId column : Text) (didYouMean : List Text)
deriving DecidableEq, Repr

/-- The roles that one column holds at a time. -/
def FieldRole.isSingleValued : FieldRole → Bool
  | entityKey | timeIndex | knownAt => true
  | feature | label | metadata => false

/-- The column of a name: the one spelled so, or the first one that differs in
case. -/
def columnIndex (fields : List DatasetField) (column : Text) : Option Nat :=
  (fields.findIdx? fun existing ↦ existing.column = column).or
    (fields.findIdx? fun existing ↦ Ascii.lower existing.column = Ascii.lower column)

section Assign

variable (toLowercase : Char → List Char) (manifest : DatasetManifest)

def closeColumns (column : Text) : List Text :=
  let wanted := normalizeIdentifier toLowercase column
  ((manifest.fields.filter fun existing ↦
    let candidate := normalizeIdentifier toLowercase existing.column
    wanted <:+: candidate || candidate <:+: wanted).map DatasetField.column).take 3

def resolveAssignment (field : FieldOverlay) : Except OverlayError (Nat × FieldOverlay) :=
  match columnIndex manifest.fields field.column with
  | some index => .ok (index, field)
  | none =>
      .error (.unknownColumn manifest.id field.column
        (closeColumns toLowercase manifest field.column))

end Assign

def demote (field : DatasetField) : DatasetField :=
  { field with role := .feature, required := false }

def FieldOverlay.assignTo (field : FieldOverlay) (target : DatasetField) : DatasetField :=
  { target with
    role := field.role
    required := field.required.getD (field.role = .entityKey || field.role = .timeIndex)
    roleConfidence := .overlay }

/-- Demote the other inferred holders of a role that one column holds at a time,
then assign the role. -/
def assign (fields : List DatasetField) (assignment : Nat × FieldOverlay) : List DatasetField :=
  let (index, field) := assignment
  let demoted :=
    if field.role.isSingleValued then
      fields.mapIdx fun other existing ↦
        if other ≠ index && existing.role = field.role && existing.roleConfidence = .inferred then
          demote existing
        else existing
    else fields
  demoted.modify index field.assignTo

def applyDatasetOverlay (toLowercase : Char → List Char) (manifest : DatasetManifest)
    (entry : DatasetOverlay) : Except OverlayError Unit × DatasetManifest :=
  match entry.fields.mapM (resolveAssignment toLowercase manifest) with
  | .error error => (.error error, manifest)
  | .ok assignments =>
      (.ok (), { manifest with
        fields := assignments.foldl assign manifest.fields
        rightsClass := entry.rightsClass.getD manifest.rightsClass
        defaultLimit := entry.defaultLimit.getD manifest.defaultLimit
        maxRowsWithoutExport := entry.maxRowsWithoutExport.getD manifest.maxRowsWithoutExport
        description := entry.description.or manifest.description })

/-! ## One column -/

/-- What an assignment does to the column at a position. -/
def reassign (assignment : Nat × FieldOverlay) (position : Nat) (existing : DatasetField) :
    DatasetField :=
  if position = assignment.1 then assignment.2.assignTo existing
  else if assignment.2.role.isSingleValued && existing.role = assignment.2.role &&
      existing.roleConfidence = .inferred then demote existing
  else existing

/-- What the assignments do to the column at a position. -/
def settle (assignments : List (Nat × FieldOverlay)) (position : Nat) (existing : DatasetField) :
    DatasetField :=
  assignments.foldl (fun existing assignment ↦ reassign assignment position existing) existing

theorem assign_getElem? (fields : List DatasetField) (assignment : Nat × FieldOverlay)
    (position : Nat) : (assign fields assignment)[position]? =
      fields[position]?.map (reassign assignment position) := by
  obtain ⟨index, field⟩ := assignment
  have hdemoted : (if field.role.isSingleValued then
      fields.mapIdx fun other existing ↦
        if other ≠ index && existing.role = field.role && existing.roleConfidence = .inferred then
          demote existing
        else existing
      else fields)[position]? = fields[position]?.map fun existing ↦
        if field.role.isSingleValued && position ≠ index && existing.role = field.role &&
          existing.roleConfidence = .inferred then demote existing else existing := by
    cases hsingle : field.role.isSingleValued with
    | false => simp
    | true => simp [List.getElem?_mapIdx, Bool.and_assoc]
  rw [assign, List.getElem?_modify, hdemoted]
  cases fields[position]? with
  | none => simp
  | some existing =>
      by_cases hposition : position = index
      · simp [reassign, hposition]
      · simp [reassign, hposition, Ne.symm hposition]

theorem foldl_assign_getElem? (assignments : List (Nat × FieldOverlay))
    (fields : List DatasetField) (position : Nat) :
    (assignments.foldl assign fields)[position]? =
      fields[position]?.map (settle assignments position) := by
  induction assignments generalizing fields with
  | nil =>
      show fields[position]? = _
      cases fields[position]? <;> rfl
  | cons assignment assignments ih =>
      rw [List.foldl_cons, ih, assign_getElem?, Option.map_map]
      rfl

/-- Whether an assignment takes its role from a column. -/
def Takes (assignment : Nat × FieldOverlay) (existing : DatasetField) : Prop :=
  assignment.2.role.isSingleValued ∧ existing.role = assignment.2.role ∧
    existing.roleConfidence = .inferred

instance (assignment : Nat × FieldOverlay) (existing : DatasetField) :
    Decidable (Takes assignment existing) := inferInstanceAs (Decidable (_ ∧ _))

theorem reassign_of_ne {assignment : Nat × FieldOverlay} {position : Nat}
    (h : position ≠ assignment.1) (existing : DatasetField) :
    reassign assignment position existing =
      if Takes assignment existing then demote existing else existing := by
  rw [reassign, if_neg h]
  refine if_congr ?_ rfl rfl
  simp [Takes, and_assoc]

/-- No role of a demoted column is taken again. -/
theorem not_takes_demote (assignment : Nat × FieldOverlay) (existing : DatasetField) :
    ¬ Takes assignment (demote existing) := by
  rintro ⟨hsingle, hrole, -⟩
  rw [← hrole] at hsingle
  cases hsingle

theorem settle_of_not_takes {assignments : List (Nat × FieldOverlay)} {position : Nat}
    {existing : DatasetField} (hposition : ∀ a ∈ assignments, position ≠ a.1)
    (h : ∀ a ∈ assignments, ¬ Takes a existing) :
    settle assignments position existing = existing := by
  induction assignments with
  | nil => rfl
  | cons assignment assignments ih =>
      obtain ⟨hne, hposition⟩ := List.forall_mem_cons.mp hposition
      obtain ⟨hhead, h⟩ := List.forall_mem_cons.mp h
      have hsame : reassign assignment position existing = existing := by
        rw [reassign_of_ne hne, if_neg hhead]
      rw [settle, List.foldl_cons, hsame]
      exact ih hposition h

/-- A column that is not assigned is demoted or kept. -/
theorem settle_of_ne {assignments : List (Nat × FieldOverlay)} {position : Nat}
    {existing : DatasetField} (hposition : ∀ a ∈ assignments, position ≠ a.1) :
    settle assignments position existing =
      if ∃ a ∈ assignments, Takes a existing then demote existing else existing := by
  induction assignments with
  | nil => simp [settle]
  | cons assignment assignments ih =>
      obtain ⟨hne, hposition⟩ := List.forall_mem_cons.mp hposition
      rw [settle, List.foldl_cons, reassign_of_ne hne]
      by_cases hhead : Takes assignment existing
      · rw [if_pos hhead, if_pos ⟨assignment, List.mem_cons_self, hhead⟩]
        exact settle_of_not_takes hposition fun a _ ↦ not_takes_demote a existing
      · rw [if_neg hhead]
        refine (ih hposition).trans ?_
        simp only [List.exists_mem_cons_iff, hhead, false_or]

theorem assignTo_demote (field : FieldOverlay) (existing : DatasetField) :
    field.assignTo (demote existing) = field.assignTo existing := rfl

theorem not_takes_assignTo (assignment : Nat × FieldOverlay) (field : FieldOverlay)
    (existing : DatasetField) : ¬ Takes assignment (field.assignTo existing) := by
  rintro ⟨-, -, hinferred⟩
  cases hinferred

/-- A column that is assigned once has what it was assigned. -/
theorem settle_of_mem {assignments : List (Nat × FieldOverlay)} {position : Nat}
    {field : FieldOverlay} (existing : DatasetField) (hnodup : (assignments.map Prod.fst).Nodup)
    (h : (position, field) ∈ assignments) :
    settle assignments position existing = field.assignTo existing := by
  obtain ⟨before, after, rfl⟩ := List.append_of_mem h
  rw [List.map_append, List.map_cons, List.nodup_middle, List.nodup_cons] at hnodup
  have hother (a : Nat × FieldOverlay) (ha : a ∈ before ++ after) : position ≠ a.1 := by
    rintro rfl
    rw [← List.map_append] at hnodup
    have hmap := List.mem_map_of_mem (f := Prod.fst) ha
    exact hnodup.1 hmap
  have hbefore : settle before position existing =
      if ∃ a ∈ before, Takes a existing then demote existing else existing :=
    settle_of_ne fun a ha ↦ hother a (List.mem_append_left _ ha)
  have hhead : reassign (position, field) position (settle before position existing) =
      field.assignTo existing := by
    rw [reassign, if_pos rfl, hbefore]
    split_ifs
    · exact assignTo_demote field existing
    · rfl
  calc settle (before ++ (position, field) :: after) position existing
      = settle after position (reassign (position, field) position
          (settle before position existing)) := by
        simp only [settle, List.foldl_append, List.foldl_cons]
    _ = settle after position (field.assignTo existing) := by rw [hhead]
    _ = field.assignTo existing :=
        settle_of_not_takes (fun a ha ↦ hother a (List.mem_append_right _ ha))
          fun a _ ↦ not_takes_assignTo a field existing

/-! ## Whole entries -/

theorem resolveAssignment_eq_ok {toLowercase : Char → List Char} {manifest : DatasetManifest}
    {field : FieldOverlay} {assignment : Nat × FieldOverlay} :
    resolveAssignment toLowercase manifest field = .ok assignment ↔
      columnIndex manifest.fields field.column = some assignment.1 ∧ assignment.2 = field := by
  unfold resolveAssignment
  cases columnIndex manifest.fields field.column with
  | none => simp
  | some index =>
      rw [Except.ok.injEq, Option.some.injEq]
      constructor
      · rintro rfl
        exact ⟨rfl, rfl⟩
      · rintro ⟨rfl, rfl⟩
        rfl

theorem mapM_eq_ok {ε α β : Type} {f : α → Except ε β} {xs : List α} {ys : List β} :
    xs.mapM f = .ok ys ↔ List.Forall₂ (fun x y ↦ f x = .ok y) xs ys := by
  induction xs generalizing ys with
  | nil =>
      rw [List.mapM_nil, pure_eq_ok_iff, List.forall₂_nil_left_iff]
      exact eq_comm
  | cons x xs ih =>
      rw [List.mapM_cons, bind_eq_ok_iff, List.forall₂_cons_left_iff]
      refine exists_congr fun y ↦ ?_
      rw [bind_eq_ok_iff]
      constructor
      · rintro ⟨hx, ys', hxs, h⟩
        exact ⟨ys', hx, ih.mp hxs, (pure_eq_ok_iff.mp h).symm⟩
      · rintro ⟨ys', hx, hxs, rfl⟩
        exact ⟨hx, ys', ih.mpr hxs, rfl⟩

theorem settle_idem {assignments : List (Nat × FieldOverlay)}
    (hnodup : (assignments.map Prod.fst).Nodup) (position : Nat) (existing : DatasetField) :
    settle assignments position (settle assignments position existing) =
      settle assignments position existing := by
  by_cases h : ∃ field, (position, field) ∈ assignments
  · obtain ⟨field, hmem⟩ := h
    rw [settle_of_mem _ hnodup hmem, settle_of_mem _ hnodup hmem]
    rfl
  · have hne (a : Nat × FieldOverlay) (ha : a ∈ assignments) : position ≠ a.1 := by
      rintro rfl
      exact h ⟨a.2, ha⟩
    have hvalue : settle assignments position existing = _ := settle_of_ne hne
    rw [hvalue]
    split_ifs with htakes
    · exact settle_of_not_takes hne fun a _ ↦ not_takes_demote a existing
    · exact settle_of_not_takes hne fun a ha ha' ↦ htakes ⟨a, ha, ha'⟩

theorem column_settle (assignments : List (Nat × FieldOverlay)) (position : Nat)
    (existing : DatasetField) : (settle assignments position existing).column = existing.column := by
  induction assignments generalizing existing with
  | nil => rfl
  | cons assignment assignments ih =>
      refine (ih _).trans ?_
      show (reassign assignment position existing).column = existing.column
      unfold reassign
      split_ifs <;> rfl

theorem map_column_foldl_assign (assignments : List (Nat × FieldOverlay))
    (fields : List DatasetField) : (assignments.foldl assign fields).map DatasetField.column =
      fields.map DatasetField.column := by
  ext1 position
  rw [List.getElem?_map, List.getElem?_map, foldl_assign_getElem?, Option.map_map]
  exact Option.map_congr fun existing _ ↦ column_settle assignments position existing

theorem foldl_assign_idem {assignments : List (Nat × FieldOverlay)}
    (hnodup : (assignments.map Prod.fst).Nodup) (fields : List DatasetField) :
    assignments.foldl assign (assignments.foldl assign fields) = assignments.foldl assign fields := by
  ext1 position
  rw [foldl_assign_getElem?, foldl_assign_getElem?, Option.map_map]
  exact Option.map_congr fun existing _ ↦ settle_idem hnodup position existing

/-- A column is found by the names of the columns alone. -/
theorem columnIndex_congr {fields fields' : List DatasetField}
    (h : fields.map DatasetField.column = fields'.map DatasetField.column) (column : Text) :
    columnIndex fields column = columnIndex fields' column := by
  have hfind (p : Text → Bool) : fields.findIdx? (fun existing ↦ p existing.column) =
      fields'.findIdx? fun existing ↦ p existing.column := by
    have hmap := congrArg (List.findIdx? p) h
    rwa [List.findIdx?_map, List.findIdx?_map] at hmap
  rw [columnIndex, columnIndex, hfind (· = column),
    hfind fun existing ↦ Ascii.lower existing = Ascii.lower column]

theorem lt_length_of_columnIndex {fields : List DatasetField} {column : Text} {index : Nat}
    (h : columnIndex fields column = some index) : index < fields.length := by
  rcases Option.or_eq_some_iff.mp h with h | ⟨-, h⟩
  · exact (List.findIdx?_eq_some_iff_getElem.mp h).1
  · exact (List.findIdx?_eq_some_iff_getElem.mp h).1

/-- The one holder of a role is the field of that role. -/
theorem fieldByRole_eq_some {manifest : DatasetManifest} {role : FieldRole} {index : Nat}
    {target : DatasetField} (htarget : manifest.fields[index]? = some target)
    (hrole : target.role = role)
    (hunique : ∀ (other : Nat) (holder : DatasetField), manifest.fields[other]? = some holder →
      holder.role = role → other = index) : manifest.fieldByRole role = some target := by
  obtain ⟨hindex, hget⟩ := List.getElem?_eq_some_iff.mp htarget
  refine List.find?_eq_some_iff_getElem.mpr ⟨decide_eq_true hrole, index, hindex, hget, ?_⟩
  intro other hother
  have hne : manifest.fields[other].role ≠ role := fun h ↦
    Nat.ne_of_lt hother (hunique other _ (List.getElem?_eq_getElem _) h)
  simpa using hne

/-- The assignments of an entry: its fields, at their columns. -/
def Resolved (manifest : DatasetManifest) (entry : DatasetOverlay)
    (assignments : List (Nat × FieldOverlay)) : Prop :=
  List.Forall₂ (fun field assignment ↦
    columnIndex manifest.fields field.column = some assignment.1 ∧ assignment.2 = field)
    entry.fields assignments

namespace Resolved

variable {manifest : DatasetManifest} {entry : DatasetOverlay}
  {assignments : List (Nat × FieldOverlay)}

theorem of_mapM {toLowercase : Char → List Char}
    (h : entry.fields.mapM (resolveAssignment toLowercase manifest) = .ok assignments) :
    Resolved manifest entry assignments :=
  (mapM_eq_ok.mp h).imp fun _ _ ↦ resolveAssignment_eq_ok.mp

theorem mapM {toLowercase : Char → List Char} {manifest' : DatasetManifest}
    (h : Resolved manifest entry assignments)
    (hcolumns : manifest'.fields.map DatasetField.column = manifest.fields.map DatasetField.column) :
    entry.fields.mapM (resolveAssignment toLowercase manifest') = .ok assignments := by
  refine mapM_eq_ok.mpr (h.imp fun field assignment h ↦ resolveAssignment_eq_ok.mpr ?_)
  rwa [columnIndex_congr hcolumns]

theorem fields_eq (h : Resolved manifest entry assignments) :
    entry.fields = assignments.map Prod.snd := by
  have hsnd := h.imp fun _ _ h ↦ h.2.symm
  rwa [← List.forall₂_map_right_iff, List.forall₂_eq_eq_eq] at hsnd

theorem columnIndex_eq (h : Resolved manifest entry assignments) {assignment : Nat × FieldOverlay}
    (ha : assignment ∈ assignments) :
    columnIndex manifest.fields assignment.2.column = some assignment.1 := by
  have hall := h
  rw [Resolved, h.fields_eq, List.forall₂_map_left_iff, List.forall₂_same] at hall
  exact (hall assignment ha).1

theorem mem_iff (h : Resolved manifest entry assignments) {index : Nat} {field : FieldOverlay} :
    (index, field) ∈ assignments ↔
      field ∈ entry.fields ∧ columnIndex manifest.fields field.column = some index := by
  constructor
  · intro hmem
    refine ⟨?_, h.columnIndex_eq hmem⟩
    rw [h.fields_eq]
    exact List.mem_map_of_mem hmem
  · rintro ⟨hfield, hindex⟩
    rw [h.fields_eq] at hfield
    obtain ⟨⟨index', field'⟩, hmem, rfl⟩ := List.mem_map.mp hfield
    have hindex' := h.columnIndex_eq hmem
    rw [hindex] at hindex'
    cases hindex'
    exact hmem

/-- Where every column is named once, every position is assigned once. -/
theorem nodup (h : Resolved manifest entry assignments)
    (hnodup : (entry.fields.map fun field ↦ columnIndex manifest.fields field.column).Nodup) :
    (assignments.map Prod.fst).Nodup := by
  have hindices : entry.fields.map (fun field ↦ columnIndex manifest.fields field.column) =
      (assignments.map Prod.fst).map some := by
    rw [h.fields_eq, List.map_map, List.map_map]
    exact List.map_congr_left fun assignment ha ↦ h.columnIndex_eq ha
  rw [hindices] at hnodup
  exact hnodup.of_map some

end Resolved

theorem getD_getD {α : Type} (x : Option α) (a : α) : x.getD (x.getD a) = x.getD a := by
  cases x <;> rfl

theorem or_or {α : Type} (x y : Option α) : x.or (x.or y) = x.or y := by
  cases x <;> rfl

/-- The one column that holds a single-valued role of the entry after it is
applied is the assigned one. -/
theorem eq_of_settle_role {manifest : DatasetManifest} {entry : DatasetOverlay}
    {assignments : List (Nat × FieldOverlay)} (h : Resolved manifest entry assignments)
    (hnodup : (assignments.map Prod.fst).Nodup)
    (hsingle : ∀ field ∈ entry.fields, ∀ field' ∈ entry.fields, field.role.isSingleValued →
      field.role = field'.role → columnIndex manifest.fields field.column =
        columnIndex manifest.fields field'.column)
    {index position : Nat} {field : FieldOverlay} {existing : DatasetField}
    (hmem : (index, field) ∈ assignments) (hvalued : field.role.isSingleValued)
    (hinferred : existing.roleConfidence = .inferred)
    (hrole : (settle assignments position existing).role = field.role) : position = index := by
  obtain ⟨hfield, hindex⟩ := h.mem_iff.mp hmem
  by_cases hassigned : ∃ field', (position, field') ∈ assignments
  · obtain ⟨field', hmem'⟩ := hassigned
    obtain ⟨hfield', hposition⟩ := h.mem_iff.mp hmem'
    rw [settle_of_mem _ hnodup hmem'] at hrole
    have hsame := hsingle field hfield field' hfield' hvalued hrole.symm
    rw [hindex, hposition] at hsame
    exact (Option.some.inj hsame).symm
  · have hne (a : Nat × FieldOverlay) (ha : a ∈ assignments) : position ≠ a.1 := by
      rintro rfl
      exact hassigned ⟨a.2, ha⟩
    rw [settle_of_ne hne] at hrole
    split_ifs at hrole with htakes
    · rw [← hrole] at hvalued
      cases hvalued
    · exact absurd ⟨(index, field), hmem, hvalued, hrole, hinferred⟩ htakes

/-- What an overlay is to do: its choices are the ones that planning sees, the
columns that it does not name keep their roles unless it gives them away, and
it is done after one application. -/
structure OverlayWins (toLowercase : Char → List Char) (manifest : DatasetManifest)
    (entry : DatasetOverlay) (manifest' : DatasetManifest) : Prop where
  wins : ∀ field ∈ entry.fields, field.role.isSingleValued → ∃ index target,
    columnIndex manifest.fields field.column = some index ∧
    manifest'.fields[index]? = some target ∧ manifest'.fieldByRole field.role = some target ∧
    ∀ (other : Nat) (holder : DatasetField), manifest'.fields[other]? = some holder →
      holder.role = field.role → other = index
  frame : ∀ (position : Nat) (existing : DatasetField), manifest.fields[position]? = some existing →
    (∀ field ∈ entry.fields, columnIndex manifest.fields field.column ≠ some position) →
    manifest'.fields[position]? = some existing ∨
      (manifest'.fields[position]? = some (demote existing) ∧
        ∃ field ∈ entry.fields, field.role.isSingleValued ∧ field.role = existing.role)
  rest : manifest' = { manifest with
    fields := manifest'.fields
    rightsClass := entry.rightsClass.getD manifest.rightsClass
    defaultLimit := entry.defaultLimit.getD manifest.defaultLimit
    maxRowsWithoutExport := entry.maxRowsWithoutExport.getD manifest.maxRowsWithoutExport
    description := entry.description.or manifest.description }
  again : applyDatasetOverlay toLowercase manifest' entry = (.ok (), manifest')

section Example

/-- A column as discovery describes it. -/
def discoveredField (column : String) (role : FieldRole) (dtype : DtypeClass) : DatasetField where
  column := column.toList
  role := role
  dtype := dtype
  required := role = .entityKey || role = .timeIndex
  roleConfidence := .inferred

def discoveredManifest : DatasetManifest where
  id := "analytics_public_events_b3_00".toList
  profile := "demo".toList
  database := "ANALYTICS".toList
  schema := "PUBLIC".toList
  object := "EVENTS".toList
  kind := .table
  rightsClass := .restricted
  defaultLimit := 1000
  maxRowsWithoutExport := 50000
  approxRowCount := none
  bytes := none
  description := none
  provenance := {
    source := .fixture
    dataSource := .fixture
    snapshotId := "snap".toList
    discoveredAt := "2026-09-24T00:00:00Z".toList
    profileFingerprint := "profile:demo".toList
    objectFingerprint := "snowflake-object:ANALYTICS.PUBLIC.EVENTS".toList
    commandId := "catalog.scan".toList
    traceId := "trace".toList
    redactionsApplied := [] }
  fields := [
    discoveredField "EVENT_DATE" .timeIndex .date,
    discoveredField "ENTITY_ID" .entityKey .string,
    discoveredField "ACCOUNT_REF" .feature .string,
    discoveredField "VALID_FROM" .feature .timestamp]

def exampleOverlay : DatasetOverlay where
  rightsClass := some .internal
  defaultLimit := some 250
  maxRowsWithoutExport := none
  description := some "Events, one row per entity per day.".toList
  fields := [⟨"account_ref".toList, .entityKey, none⟩, ⟨"VALID_FROM".toList, .knownAt, none⟩]

end Example

end FrankenSnowflake.Catalog
