import FrankenSnowflake.Cache.InMemory
import FrankenSnowflake.Catalog.AxisText
import FrankenSnowflake.Catalog.RawPlanner
import FrankenSnowflake.Foundation.NamePath

/-!
# What a plan id identifies

The text that is hashed for a plan joins its fields with bars and escapes nothing.
Two plans are hashed from one text only where they are the same, or where a field of
one of them runs on over the bar behind that field of the other.
-/

namespace FrankenSnowflake.Catalog

open Foundation NamePath Digits

/-! ## The hashed text as a name -/

/-- The mark before each field. -/
def bar (_ : Unit) : Text := ['|']

theorem marks_bar : Marks bar where
  ne_nil _ := List.cons_ne_nil _ _
  eq_of_isPrefix _ := rfl
  head_notMem_tail _ := List.not_mem_nil

def labelled (fields : List Text) : List (Unit × Text) := fields.map ((), ·)

theorem labelled_injective : Function.Injective labelled :=
  List.map_injective_iff.mpr fun _ _ h ↦ (Prod.mk.inj h).2

theorem barred_eq_joined (fields : List Text) : barred fields = joined bar (labelled fields) := by
  induction fields with
  | nil => rfl
  | cons field fields ih =>
      rw [barred, List.flatMap_cons, ← barred, ih]
      rfl

/-- The first text and its fields run on over the second: where they part, a field of
the first is that of the second, a bar, and a text that reads on as the second does. -/
def RunsOver (sql : Text) (fields : List Text) (sql' : Text) (fields' : List Text) : Prop :=
  RunsOn bar sql (labelled fields) sql' (labelled fields')

section Fields

variable {sql sql' : Text} {fields fields' : List Text}

theorem barred_eq_iff :
    sql ++ barred fields = sql' ++ barred fields' ↔
      (sql = sql' ∧ fields = fields') ∨ RunsOver sql fields sql' fields' ∨
        RunsOver sql' fields' sql fields := by
  rw [barred_eq_joined, barred_eq_joined, marks_bar.joined_eq_iff, Prod.mk.injEq,
    labelled_injective.eq_iff]
  rfl

theorem RunsOver.ne (h : RunsOver sql fields sql' fields') : (sql, fields) ≠ (sql', fields') := by
  intro heq
  obtain ⟨rfl, rfl⟩ := Prod.mk.inj heq
  exact RunsOn.ne marks_bar h rfl

theorem RunsOver.text_eq (h : RunsOver sql fields sql' fields') :
    sql ++ barred fields = sql' ++ barred fields' :=
  barred_eq_iff.mpr (.inr (.inl h))

/-- Where no field but the last contains a bar, nothing runs on. -/
theorem not_runsOver_of_plain (h : ∀ field ∈ sql :: fields, '|' ∉ field) :
    ¬ RunsOver sql fields sql' fields' := by
  intro hrun
  obtain ⟨i, w, l, hw, -, -, hmark⟩ := hrun.exists_mark
  have hmem : w ∈ sql :: fields := by
    have hmap : (labelled fields).map Prod.snd = fields := by
      simp [labelled, Function.comp_def]
    rw [hmap] at hw
    exact List.mem_of_getElem? hw
  exact h w hmem (hmark.subset List.mem_cons_self)

end Fields

/-! ## Bindings and guardrails -/

theorem append_cons_inj {c : Char} {x y r r' : Text} (hx : c ∉ x) (hy : c ∉ y)
    (h : x ++ c :: r = y ++ c :: r') : x = y ∧ r = r' := by
  induction x generalizing y with
  | nil =>
      cases y with
      | nil => exact ⟨rfl, (List.cons_eq_cons.mp h).2⟩
      | cons d y => exact absurd ((List.cons_eq_cons.mp h).1 ▸ List.mem_cons_self) hy
  | cons d x ih =>
      cases y with
      | nil => exact absurd ((List.cons_eq_cons.mp h).1 ▸ List.mem_cons_self) hx
      | cons e y =>
          obtain ⟨rfl, hrest⟩ := List.cons_eq_cons.mp h
          obtain ⟨rfl, hr⟩ := ih (List.not_mem_of_not_mem_cons hx)
            (List.not_mem_of_not_mem_cons hy) hrest
          exact ⟨rfl, hr⟩

theorem bindingText_inj {e e' : Text × TypedBinding} (he : IsBindingEntry e)
    (he' : IsBindingEntry e') (h : bindingText e = bindingText e') : e = e' := by
  obtain ⟨position, type, value⟩ := e
  obtain ⟨position', type', value'⟩ := e'
  rw [bindingText, bindingText] at h
  simp only [List.append_assoc] at h
  obtain ⟨rfl, hrest⟩ := append_cons_inj he.1 he'.1 h
  obtain ⟨rfl, rfl⟩ := append_cons_inj he.2 he'.2 hrest
  rfl

theorem map_bindingText_inj {es es' : List (Text × TypedBinding)}
    (hes : ∀ e ∈ es, IsBindingEntry e) (hes' : ∀ e ∈ es', IsBindingEntry e)
    (h : es.map bindingText = es'.map bindingText) : es = es' := by
  induction es generalizing es' with
  | nil => exact (List.map_eq_nil_iff.mp h.symm).symm
  | cons e es ih =>
      cases es' with
      | nil => cases h
      | cons e' es' =>
          obtain ⟨hhead, htail⟩ := List.cons_eq_cons.mp h
          obtain ⟨he, hes⟩ := List.forall_mem_cons.mp hes
          obtain ⟨he', hes'⟩ := List.forall_mem_cons.mp hes'
          rw [bindingText_inj he he' hhead, ih hes hes' htail]

theorem guardedFields_inj {bindings bindings' : SortedMap Text TypedBinding}
    {guardrails guardrails' : PlanGuardrails} (hb : ∀ e ∈ bindings.entries, IsBindingEntry e)
    (hb' : ∀ e ∈ bindings'.entries, IsBindingEntry e)
    (h : guardedFields bindings guardrails = guardedFields bindings' guardrails') :
    bindings = bindings' ∧ guardrails = guardrails' := by
  obtain ⟨timeout, rows, bytes, tag⟩ := guardrails
  obtain ⟨timeout', rows', bytes', tag'⟩ := guardrails'
  simp only [guardedFields, List.cons_append, List.nil_append, List.cons.injEq] at h
  obtain ⟨htimeout, hrows, hbytes, rfl, hentries⟩ := h
  obtain rfl := toDigits_injective htimeout
  obtain rfl := toDigits_injective hrows
  obtain rfl := toDigits_injective hbytes
  have hentries := map_bindingText_inj hb hb' hentries
  refine ⟨SortedMap.ext fun k ↦ ?_, rfl⟩
  rw [SortedMap.get?, SortedMap.get?, hentries]

/-! ## Ids -/

/-- The value of a hexadecimal digit. -/
def hexDigitValue (c : Char) : Nat :=
  if c.isDigit then c.toNat - '0'.toNat else c.toNat - 'a'.toNat + 10

def hexValue (digits : Text) : Nat := digits.foldl (fun n c ↦ n * 16 + hexDigitValue c) 0

theorem hexDigitValue_digitChar : ∀ n < 16, hexDigitValue n.digitChar = n := by decide

theorem hexValue_concat (digits : Text) (c : Char) :
    hexValue (digits ++ [c]) = hexValue digits * 16 + hexDigitValue c := by
  rw [hexValue, List.foldl_append]
  rfl

theorem hexValue_toDigits (n : Nat) : hexValue (Nat.toDigits 16 n) = n := by
  induction n using Nat.strongRecOn with
  | ind n ih =>
      rw [Nat.toDigits_eq_if (by decide)]
      split_ifs with hn
      · rw [hexValue, List.foldl_cons, List.foldl_nil, hexDigitValue_digitChar n hn]
        omega
      · have hlt : n / 16 < n := Nat.div_lt_self (by omega) (by decide)
        rw [hexValue_concat, ih _ hlt, hexDigitValue_digitChar _ (Nat.mod_lt _ (by decide))]
        exact Nat.div_add_mod' n 16

theorem hexValue_zeros (k : Nat) (digits : Text) :
    hexValue (List.replicate k '0' ++ digits) = hexValue digits := by
  induction k with
  | zero => rfl
  | succ k ih => exact ih

theorem formatPlanId_inj {text text' : Text} (h : formatPlanId text = formatPlanId text') :
    fnv1a64 (Utf8.encode text) = fnv1a64 (Utf8.encode text') := by
  unfold formatPlanId at h
  simp only [List.append_assoc] at h
  have hvalue := congrArg hexValue (List.append_cancel_left h)
  rw [hexValue_zeros, hexValue_zeros, hexValue_toDigits, hexValue_toDigits] at hvalue
  exact UInt64.toNat_inj.mp hvalue

/-- What ids are for.  Plans that are hashed from one text are the same, and, unless
the two texts have one hash, storing a plan leaves what is stored of another one. -/
structure Identified (text planId text' planId' : Text) (Same : Prop) : Prop where
  same : text = text' → Same
  upsert : (fnv1a64 (Utf8.encode text) = fnv1a64 (Utf8.encode text') → text = text') → ¬ Same →
    ∀ (E : Cache.Crates) (c c' : Cache.InMemoryCache) (record : Cache.QueryPlanRecord),
      record.planId = planId' → c.upsertQueryPlan E record = .ok c' →
      c'.queryPlan planId = c.queryPlan planId

theorem queryPlan_of_upsertQueryPlan {E : Cache.Crates} {c c' : Cache.InMemoryCache}
    {record : Cache.QueryPlanRecord} {planId : Text} (hne : planId ≠ record.planId)
    (h : c.upsertQueryPlan E record = .ok c') : c'.queryPlan planId = c.queryPlan planId := by
  obtain ⟨-, -, h⟩ := bind_eq_ok_iff.mp h
  obtain rfl := pure_eq_ok_iff.mp h
  show (Function.update c Cache.Table.queryPlans ((c .queryPlans).insert record.planId record)
    .queryPlans).get? planId = _
  rw [Function.update_self, SortedMap.get?_insert, if_neg hne]
  rfl

theorem identified_iff {text text' : Text} {Same : Prop} :
    Identified text (formatPlanId text) text' (formatPlanId text') Same ↔
      (text = text' → Same) := by
  refine ⟨Identified.same, fun hsame ↦ ⟨hsame, ?_⟩⟩
  intro hinj hnot E c c' record hrecord hupsert
  refine queryPlan_of_upsertQueryPlan (fun heq ↦ ?_) hupsert
  exact hnot (hsame (hinj (formatPlanId_inj (heq.trans hrecord))))

/-! ## Raw plans -/

/-- An accepted raw plan. -/
structure RawPlan where
  request : RawSqlPlanRequest
  plan : QueryPlan
  accepted : planRawSqlDryRun request = .ok plan

namespace RawPlan

variable (p p' : RawPlan)

/-- The text that is hashed. -/
def text : Text := normalizedRawPlan p.plan.sql p.plan.bindings p.plan.guardrails p.request

/-- The fields behind the SQL. -/
def fields : List Text :=
  [p.request.profileFingerprint, "raw".toList] ++ guardedFields p.plan.bindings p.plan.guardrails

structure Same : Prop where
  sql : p.plan.sql = p'.plan.sql
  bindings : p.plan.bindings = p'.plan.bindings
  guardrails : p.plan.guardrails = p'.plan.guardrails
  profileFingerprint : p.request.profileFingerprint = p'.request.profileFingerprint

theorem text_eq : p.text = p.plan.sql ++ barred p.fields := rfl

variable {p p'}

theorem limitedSql_entries (sql : Text) (hasSqlLimit : Bool) (limit : Option Nat) :
    ∀ e ∈ (limitedSql sql hasSqlLimit limit).2.entries, IsBindingEntry e := by
  unfold limitedSql
  cases hasSqlLimit with
  | true => exact nofun
  | false =>
      cases limit with
      | none => exact nofun
      | some limit => exact kept_isBindingEntry _ _ _ nofun

theorem exists_planned (p : RawPlan) : p.plan.planId = formatPlanId p.text ∧
    ∀ e ∈ p.plan.bindings.entries, IsBindingEntry e := by
  obtain ⟨request, plan, accepted⟩ := p
  unfold planRawSqlDryRun at accepted
  cases hnormalized : normalizeRawSelect request.sql with
  | error refusal => simp [hnormalized] at accepted
  | ok sql =>
      simp only [hnormalized] at accepted
      split at accepted
      next => cases accepted
      next guardrails warnings hguard =>
          obtain rfl := Except.ok.inj accepted
          exact ⟨rfl, limitedSql_entries _ _ _⟩

theorem same_of_fields_eq (hsql : p.plan.sql = p'.plan.sql) (h : p.fields = p'.fields) :
    p.Same p' := by
  obtain ⟨hfingerprint, hguarded⟩ := List.cons_eq_cons.mp h
  obtain ⟨hbindings, hguardrails⟩ := guardedFields_inj p.exists_planned.2 p'.exists_planned.2
    (List.cons_eq_cons.mp hguarded).2
  exact ⟨hsql, hbindings, hguardrails, hfingerprint⟩

theorem Same.fields_eq (h : p.Same p') : p.fields = p'.fields := by
  rw [fields, fields, h.profileFingerprint, h.bindings, h.guardrails]

theorem identified_iff_not_runsOver :
    Identified p.text p.plan.planId p'.text p'.plan.planId (p.Same p') ↔
      ¬ RunsOver p.plan.sql p.fields p'.plan.sql p'.fields ∧
        ¬ RunsOver p'.plan.sql p'.fields p.plan.sql p.fields := by
  rw [p.exists_planned.1, p'.exists_planned.1, identified_iff, text_eq, text_eq, barred_eq_iff]
  constructor
  · intro h
    constructor
    · intro hrun
      have hsame := h (.inr (.inl hrun))
      exact hrun.ne (Prod.ext hsame.sql hsame.fields_eq)
    · intro hrun
      have hsame := h (.inr (.inr hrun))
      exact hrun.ne (Prod.ext hsame.sql.symm hsame.fields_eq.symm)
  · rintro ⟨hrun, hrun'⟩ (⟨hsql, hfields⟩ | h | h)
    · exact same_of_fields_eq hsql hfields
    · exact absurd h hrun
    · exact absurd h hrun'

end RawPlan

/-! ## Dataset plans -/

/-- An accepted dataset plan. -/
structure DatasetPlan (R : Rendering) where
  manifest : DatasetManifest
  columns : List ColumnCatalogEntry
  operators : List OperatorCatalogEntry
  request : DatasetQueryRequest
  plan : QueryPlan
  accepted : planDatasetQuery R manifest columns operators request = .ok plan

namespace DatasetPlan

variable {R : Rendering} (p p' : DatasetPlan R)

/-- The text that is hashed. -/
def text : Text :=
  normalizedPlan p.plan.sql p.plan.bindings p.plan.guardrails p.manifest p.request

/-- The fields behind the SQL. -/
def fields : List Text :=
  [p.request.profileFingerprint, p.manifest.id, p.request.«from».getD [],
    p.request.«to».getD [], p.request.asOf.getD []] ++
    guardedFields p.plan.bindings p.plan.guardrails

structure Same : Prop where
  sql : p.plan.sql = p'.plan.sql
  bindings : p.plan.bindings = p'.plan.bindings
  guardrails : p.plan.guardrails = p'.plan.guardrails
  profileFingerprint : p.request.profileFingerprint = p'.request.profileFingerprint
  datasetId : p.manifest.id = p'.manifest.id
  asOf : p.request.asOf = p'.request.asOf

theorem text_eq : p.text = p.plan.sql ++ barred p.fields := rfl

variable {p p'}

theorem planId_eq (p : DatasetPlan R) : p.plan.planId = formatPlanId p.text := by
  obtain ⟨compiled, hplanned⟩ := exists_planned p.accepted
  exact hplanned.planId

theorem Same.symm (h : p.Same p') : p'.Same p :=
  ⟨h.sql.symm, h.bindings.symm, h.guardrails.symm, h.profileFingerprint.symm, h.datasetId.symm,
    h.asOf.symm⟩

theorem same_of_fields_eq (hsql : p.plan.sql = p'.plan.sql) (h : p.fields = p'.fields) :
    p.Same p' := by
  obtain ⟨compiled, hplanned⟩ := exists_planned p.accepted
  obtain ⟨compiled', hplanned'⟩ := exists_planned p'.accepted
  simp only [fields, List.cons_append, List.nil_append, List.cons.injEq] at h
  obtain ⟨hfingerprint, hid, -, -, hasOf, hguarded⟩ := h
  obtain ⟨hbindings, hguardrails⟩ := guardedFields_inj hplanned.isBindingEntry
    hplanned'.isBindingEntry hguarded
  exact ⟨hsql, hbindings, hguardrails, hfingerprint, hid,
    asOf_eq_of_sql_eq hplanned hplanned' hsql hasOf⟩

/-- The bounds of two plans that are the same and are hashed from one text: neither
lower bound is the other with a bar and more behind it. -/
theorem Same.from_ne {u : Text} (h : p.Same p')
    (hbounds : p.request.«from».getD [] ++ '|' :: p.request.«to».getD [] =
      p'.request.«from».getD [] ++ '|' :: p'.request.«to».getD []) :
    p.request.«from».getD [] ≠ p'.request.«from».getD [] ++ '|' :: u := by
  intro hu
  rw [hu, List.append_assoc] at hbounds
  have hto := (List.cons_eq_cons.mp (List.append_cancel_left hbounds)).2
  cases hfrom : p.request.«from» with
  | none =>
      rw [hfrom] at hu
      exact absurd hu.symm (by simp)
  | some v =>
      cases hto' : p'.request.«to» with
      | none =>
          rw [hto'] at hto
          exact absurd hto (by simp)
      | some w =>
          obtain ⟨compiled, hplanned⟩ := exists_planned p.accepted
          obtain ⟨compiled', hplanned'⟩ := exists_planned p'.accepted
          obtain ⟨v', hfrom', hlength⟩ := length_from_of_sql_eq hplanned hplanned' h.sql h.bindings
            h.asOf hfrom hto'
          rw [hfrom, hfrom', Option.getD_some, Option.getD_some] at hu
          rw [hu, List.length_append, List.length_cons] at hlength
          omega

theorem Same.fields_eq (h : p.Same p') (htext : p.text = p'.text) : p.fields = p'.fields := by
  have hbounds : p.request.«from».getD [] ++ '|' :: p.request.«to».getD [] =
      p'.request.«from».getD [] ++ '|' :: p'.request.«to».getD [] := by
    rw [text_eq, text_eq, fields, fields, h.sql, h.profileFingerprint, h.datasetId, h.asOf,
      h.bindings, h.guardrails] at htext
    simp only [barred, List.cons_append, List.nil_append, List.flatMap_cons,
      List.append_cancel_left_eq, List.cons.injEq, true_and] at htext
    have htail : (p.request.«from».getD [] ++ '|' :: p.request.«to».getD []) ++
        '|' :: (p'.request.asOf.getD [] ++
          (guardedFields p'.plan.bindings p'.plan.guardrails).flatMap fun field ↦ '|' :: field) =
      (p'.request.«from».getD [] ++ '|' :: p'.request.«to».getD []) ++
        '|' :: (p'.request.asOf.getD [] ++
          (guardedFields p'.plan.bindings p'.plan.guardrails).flatMap fun field ↦ '|' :: field) := by
      simpa only [List.append_assoc, List.cons_append] using htext
    exact List.append_cancel_right htail
  have hfrom : p.request.«from».getD [] = p'.request.«from».getD [] := by
    rcases List.append_eq_append_iff.mp hbounds with ⟨u, hu, hrest⟩ | ⟨u, hu, hrest⟩
    · cases u with
      | nil => rw [hu, List.append_nil]
      | cons c u =>
          obtain rfl := (List.cons_eq_cons.mp hrest).1
          exact absurd hu (h.symm.from_ne hbounds.symm)
    · cases u with
      | nil => rw [hu, List.append_nil]
      | cons c u =>
          obtain rfl := (List.cons_eq_cons.mp hrest).1
          exact absurd hu (h.from_ne hbounds)
  have hto : p.request.«to».getD [] = p'.request.«to».getD [] := by
    rw [hfrom] at hbounds
    exact (List.cons_eq_cons.mp (List.append_cancel_left hbounds)).2
  rw [fields, fields, h.profileFingerprint, h.datasetId, hfrom, hto, h.asOf, h.bindings,
    h.guardrails]

theorem identified_iff_not_runsOver :
    Identified p.text p.plan.planId p'.text p'.plan.planId (p.Same p') ↔
      ¬ RunsOver p.plan.sql p.fields p'.plan.sql p'.fields ∧
        ¬ RunsOver p'.plan.sql p'.fields p.plan.sql p.fields := by
  rw [p.planId_eq, p'.planId_eq, identified_iff]
  constructor
  · intro h
    constructor
    · intro hrun
      have hsame := h hrun.text_eq
      exact hrun.ne (Prod.ext hsame.sql (hsame.fields_eq hrun.text_eq))
    · intro hrun
      have hsame := h hrun.text_eq.symm
      exact hrun.ne (Prod.ext hsame.sql.symm (hsame.symm.fields_eq hrun.text_eq))
  · rintro ⟨hrun, hrun'⟩ htext
    rcases barred_eq_iff.mp htext with ⟨hsql, hfields⟩ | h | h
    · exact same_of_fields_eq hsql hfields
    · exact absurd h hrun
    · exact absurd h hrun'

end DatasetPlan

/-- A filter for two values of a column. -/
def oneOf (value value' : String) : PredicateAst :=
  .leaf ⟨"A".toList, "in".toList, some (.array [.string value.toList, .string value'.toList])⟩

end FrankenSnowflake.Catalog
