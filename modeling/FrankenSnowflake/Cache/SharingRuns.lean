import FrankenSnowflake.Cache.SharingInvariant

/-!
# Runs of handles that share a directory

Of every record that was appended, the logs hold the record, or what came after
it tells why not, as long as each rename is over a log that the author of the
temporary file still knows.
-/

namespace FrankenSnowflake.Cache

open Foundation

variable {E : Crates} {ι : Type}

/-! ## The invariant -/

/-- What a handle knows of the logs, if these hold `ledger`. -/
def World.known (w : World ι) (ledger : InMemoryCache) (h : ι) (t : Table) :
    Option (SortedMap t.Key t.Record) :=
  if w.current h t then some (ledger t) else none

/-- The write of a record is told of. -/
def Operation.Told (op : Operation) (history : List Event) : Prop :=
  ∀ t r, op = .write t r → .wrote t r ∈ history

/-- The requests that are left of an operation keep to their specification. -/
abbrev HoldsPost (E : Crates) (op : Operation) : Requests → View → Prop :=
  Program.Holds (Spec E op) fun a v ↦ Post op a.1 a.2 v

/-- A handle is in step with what it knows. -/
def HandleOk (E : Crates) (w : World ι) (ledger : InMemoryCache) (h : ι) : Handle → Prop
  | .idle c => Synced c ⟨w.known ledger h, false⟩
  | .busy op p => ∃ appended, (appended = true → op.Told w.history) ∧
      HoldsPost E op p ⟨w.known ledger h, appended⟩
  | .beforeRename op t k => ∃ appended evicted, (appended = true → op.Told w.history) ∧
      (∀ temp, w.temps t = some temp → temp.author = h → temp.evicted = evicted) ∧
      HoldsPost E op (k true) (View.rewrote ⟨w.known ledger h, appended⟩ t evicted) ∧
      HoldsPost E op (k false) (View.blind ⟨w.known ledger h, appended⟩)

/-- The logs hold `ledger`, and everything else agrees with it. -/
structure Inv (E : Crates) (w : World ι) (ledger : InMemoryCache) : Prop where
  logs : ∀ t, IsLog E t (ledger t) (w.directory t)
  temps : ∀ t temp, w.temps t = some temp → temp.current = true →
    temp.bytes = canonicalBytes E t (without (ledger t) temp.evicted)
  handles : ∀ h, HandleOk E w ledger h (w.handles h)
  told : ∀ t r, .write t r ∈ w.returned → .wrote t r ∈ w.history
  kept : ∀ t r before later, w.history = before ++ .wrote t r :: later →
    (ledger t).get? (t.key r) = some r ∨ Gone t r later

theorem HoldsPost.le {op : Operation} {p : Requests} {v v' : View} (h : HoldsPost E op p v)
    (hle : v'.le v) : HoldsPost E op p v' :=
  Program.Holds.weaken (Φ := Spec E op) (spec_monotone op) spec_le
    (fun hle hpost ↦ ⟨hpost.1.le hle, fun hok t r hop ↦ hle.appended.trans (hpost.2 hok t r hop)⟩)
    hle h

/-- What a handle may lose while others take their turns. -/
theorem HandleOk.mono {w w' : World ι} {ledger ledger' : InMemoryCache} {h : ι} {x : Handle}
    (hx : HandleOk E w ledger h x)
    (hknown : ∀ t, w'.known ledger' h t = none ∨ w'.known ledger' h t = w.known ledger h t)
    (htemps : ∀ t temp', w'.temps t = some temp' → temp'.author = h →
      ∃ temp, w.temps t = some temp ∧ temp.author = h ∧ temp'.evicted = temp.evicted)
    (hhistory : ∀ e ∈ w.history, e ∈ w'.history) : HandleOk E w' ledger' h x := by
  have hle : ∀ appended, View.le ⟨w'.known ledger' h, appended⟩ ⟨w.known ledger h, appended⟩ :=
    fun appended ↦ ⟨hknown, rfl⟩
  cases x with
  | idle c => exact Synced.le hx (hle false)
  | busy op p =>
      obtain ⟨appended, htold, hp⟩ := hx
      exact ⟨appended, fun ha t r hop ↦ hhistory _ (htold ha t r hop), hp.le (hle appended)⟩
  | beforeRename op t k =>
      obtain ⟨appended, evicted, htold, hlabel, htrue, hfalse⟩ := hx
      refine ⟨appended, evicted, fun ha t r hop ↦ hhistory _ (htold ha t r hop), ?_,
        htrue.le ((hle appended).rewrote t evicted), hfalse.le (hle appended).blind⟩
      intro temp' htemp' hauthor
      obtain ⟨temp, htemp, hauthor, hevicted⟩ := htemps t temp' htemp' hauthor
      rw [hevicted]
      exact hlabel temp htemp hauthor

/-! ## What events do to the logs -/

theorem Gone.append {t : Table} {r : t.Record} {later : List Event} (h : Gone t r later)
    (e : Event) : Gone t r (later ++ [e]) := by
  refine h.imp (fun ⟨hlast, r', hmem, hkey⟩ ↦ ⟨hlast, r', ?_, hkey⟩)
    fun ⟨keys, hmem, hkey⟩ ↦ ⟨keys, ?_, hkey⟩
  · exact List.mem_append_left _ hmem
  · exact List.mem_append_left _ hmem

/-- The last of the events is the write, or comes after it. -/
theorem eq_concat_iff {history before later : List Event} {e e' : Event}
    (h : history ++ [e] = before ++ e' :: later) :
    (later = [] ∧ e = e' ∧ history = before) ∨
      ∃ later', later = later' ++ [e] ∧ history = before ++ e' :: later' := by
  rcases List.eq_nil_or_concat later with rfl | ⟨later', e'', rfl⟩
  · obtain ⟨hhistory, he⟩ := List.append_inj' h rfl
    exact Or.inl ⟨rfl, List.singleton_inj.mp he, hhistory⟩
  · rw [List.concat_eq_append] at h ⊢
    rw [← List.cons_append, ← List.append_assoc] at h
    obtain ⟨hhistory, he⟩ := List.append_inj' h rfl
    rw [List.singleton_inj.mp he]
    exact Or.inr ⟨later', rfl, hhistory⟩

/-- An append, where the first record counts, does not hide behind another one. -/
theorem kept_wrote {ledger : InMemoryCache} {history : List Event} {t₀ : Table} {r₀ : t₀.Record}
    (hkept : ∀ t r before later, history = before ++ .wrote t r :: later →
      (ledger t).get? (t.key r) = some r ∨ Gone t r later)
    (hfresh : t₀.lastWriteWins = true ∨ ∀ r, (ledger t₀).get? (t₀.key r₀) = some r → r = r₀)
    {t : Table} {r : t.Record} {before later : List Event}
    (h : history ++ [.wrote t₀ r₀] = before ++ .wrote t r :: later) :
    (Function.update ledger t₀ (t₀.put (ledger t₀) r₀) t).get? (t.key r) = some r ∨ Gone t r later := by
  rcases eq_concat_iff h with ⟨rfl, heq, -⟩ | ⟨later, rfl, hhistory⟩
  · cases heq
    rw [Function.update_self, get?_put, if_pos rfl]
    refine Or.inl ?_
    split_ifs with hlast
    · rfl
    · cases hget : (ledger t₀).get? (t₀.key r₀) with
      | none => rfl
      | some r => rw [hfresh.resolve_left hlast r hget]; rfl
  · rcases hkept t r before later hhistory with hget | hgone
    · by_cases ht : t = t₀
      · subst ht
        rw [Function.update_self, get?_put]
        by_cases hkey : t.key r = t.key r₀
        · cases hlast : t.lastWriteWins with
          | true => exact Or.inr (Or.inl ⟨hlast, r₀, List.mem_append_right _ (by simp), hkey.symm⟩)
          | false =>
              refine Or.inl ?_
              rw [if_pos hkey, if_neg Bool.false_ne_true, hget]
              rfl
        · exact Or.inl (by rw [if_neg hkey, hget])
      · rw [Function.update_of_ne ht]
        exact Or.inl hget
    · exact Or.inr (hgone.append _)

/-- What a rewrite evicts is told of. -/
theorem kept_evicted {ledger : InMemoryCache} {history : List Event} {t₀ : Table}
    {keys : t₀.Key → Bool}
    (hkept : ∀ t r before later, history = before ++ .wrote t r :: later →
      (ledger t).get? (t.key r) = some r ∨ Gone t r later)
    {t : Table} {r : t.Record} {before later : List Event}
    (h : history ++ [.evicted t₀ keys] = before ++ .wrote t r :: later) :
    (Function.update ledger t₀ (without (ledger t₀) keys) t).get? (t.key r) = some r ∨
      Gone t r later := by
  rcases eq_concat_iff h with ⟨-, heq, -⟩ | ⟨later, rfl, hhistory⟩
  · cases heq
  · rcases hkept t r before later hhistory with hget | hgone
    · by_cases ht : t = t₀
      · subst ht
        rw [Function.update_self, get?_without]
        cases hkey : keys (t.key r) with
        | true => exact Or.inr (Or.inr ⟨keys, List.mem_append_right _ (by simp), hkey⟩)
        | false => exact Or.inl hget
      · rw [Function.update_of_ne ht]
        exact Or.inl hget
    · exact Or.inr (hgone.append _)

/-- A handle that is opened finds what the logs hold. -/
theorem Inv.finds {w : World ι} {ledger : InMemoryCache} (h : Inv E w ledger) {t : Table}
    {r : t.Record} : w.Finds E t r ↔ (ledger t).get? (t.key r) = some r := by
  obtain ⟨count, hrun⟩ := run_ensureTableLoaded_isLog (c := .open) rfl rfl (h.logs t)
  constructor
  · rintro ⟨c, hc, hget⟩
    rw [hrun] at hc
    cases hc
    simpa [FileCache.load] using hget
  · intro hget
    exact ⟨_, hrun, by simpa [FileCache.load] using hget⟩

/-! ## One turn -/

section Step

variable [DecidableEq ι] {w : World ι} {ledger : InMemoryCache} {h : ι}

/-- One handle changes, the others lose at most knowledge. -/
theorem handles_update {w' : World ι} {ledger' : InMemoryCache} {x : Handle}
    (hw : ∀ h, HandleOk E w ledger h (w.handles h)) (hhandles : w'.handles = Function.update w.handles h x)
    (hx : HandleOk E w' ledger' h x)
    (hother : ∀ h', h' ≠ h → HandleOk E w ledger h' (w.handles h') →
      HandleOk E w' ledger' h' (w.handles h')) :
    ∀ h', HandleOk E w' ledger' h' (w'.handles h') := by
  intro h'
  rw [hhandles]
  by_cases heq : h' = h
  · subst heq
    rwa [Function.update_self]
  · rw [Function.update_of_ne heq]
    exact hother h' heq (hw h')

omit [DecidableEq ι] in
/-- A turn that touches no file. -/
theorem HandleOk.same {w' : World ι} {h' : ι} {x : Handle} (hx : HandleOk E w ledger h' x)
    (hcurrent : ∀ t, w'.current h' t = w.current h' t) (htemps : w'.temps = w.temps)
    (hhistory : w'.history = w.history) : HandleOk E w' ledger h' x := by
  refine hx.mono (fun t ↦ Or.inr ?_) (fun t temp htemp hauthor ↦ ⟨temp, htemps ▸ htemp, hauthor, rfl⟩)
    (fun e he ↦ hhistory ▸ he)
  rw [World.known, World.known, hcurrent]

/-- Other handles lose track of a log that changes. -/
theorem known_changeLog {ledger : InMemoryCache} {h' : ι} (hne : h' ≠ h) (t : Table)
    (m : SortedMap t.Key t.Record) (keeps : Bool) (bytes : List UInt8) (t' : Table) :
    (w.changeLog h t keeps bytes).known (Function.update ledger t m) h' t' = none ∨
      (w.changeLog h t keeps bytes).known (Function.update ledger t m) h' t' =
        w.known ledger h' t' := by
  unfold World.known World.changeLog
  by_cases ht : t' = t
  · subst ht
    exact Or.inl (by simp [hne])
  · exact Or.inr (by simp [ht])

/-- The handle whose log changes keeps track of it, if it does. -/
theorem known_changeLog_self (t : Table) (f : SortedMap t.Key t.Record → SortedMap t.Key t.Record)
    (bytes : List UInt8) (t' : Table) :
    (w.changeLog h t true bytes).known (Function.update ledger t (f (ledger t))) h t' =
      Function.update (w.known ledger h) t ((w.known ledger h t).map f) t' := by
  unfold World.known World.changeLog
  by_cases ht : t' = t
  · subst ht
    cases hcurrent : w.current h t' <;> simp [hcurrent]
  · simp [ht]

theorem Inv.begin {c : FileCache} (hw : Inv E w ledger) (hh : w.handles h = .idle c) (op : Operation) :
    Inv E { w with handles := Function.update w.handles h (.busy op (op.program E c)) } ledger := by
  refine ⟨hw.logs, hw.temps, ?_, hw.told, hw.kept⟩
  refine handles_update hw.handles rfl ?_ fun h' _ hok ↦ hok.same (fun _ ↦ rfl) rfl rfl
  have hsync := hw.handles h
  rw [hh] at hsync
  have hmeets := meets_program (E := E) op hsync
  unfold Meets at hmeets
  exact ⟨false, nofun, hmeets⟩

theorem Inv.finish {op : Operation} {r : CacheResult Unit} {c : FileCache} (hw : Inv E w ledger)
    (hh : w.handles h = .busy op (.done (r, c))) :
    Inv E { w with
      handles := Function.update w.handles h (.idle c)
      returned := if r = .ok () then w.returned ++ [op] else w.returned } ledger := by
  have hbusy := hw.handles h
  rw [hh] at hbusy
  obtain ⟨appended, htold, hsync, happended⟩ := hbusy
  refine ⟨hw.logs, hw.temps, ?_, fun t r' hmem ↦ ?_, hw.kept⟩
  · refine handles_update hw.handles rfl ?_ fun h' _ hok ↦ hok.same (fun _ ↦ rfl) rfl rfl
    exact ⟨hsync.isLazy, hsync.keyed, hsync.inner⟩
  · dsimp only at hmem
    split_ifs at hmem with hok
    · rcases List.mem_append.mp hmem with hmem | hmem
      · exact hw.told t r' hmem
      · obtain rfl := List.mem_singleton.mp hmem
        exact htold (happended (by rw [hok]; rfl) t r' rfl) t r' rfl
    · exact hw.told t r' hmem

theorem Inv.read {op : Operation} {t : Table} {k : Option (List UInt8) → Requests}
    (hw : Inv E w ledger) (hh : w.handles h = .busy op (.ask (.read t) k)) :
    Inv E { w with
      handles := Function.update w.handles h (.busy op (k (w.directory t)))
      current := Function.update w.current h (Function.update (w.current h) t true) } ledger := by
  have hbusy := hw.handles h
  rw [hh] at hbusy
  obtain ⟨appended, htold, hholds⟩ := hbusy
  refine ⟨hw.logs, hw.temps, ?_, hw.told, hw.kept⟩
  refine handles_update hw.handles rfl ?_ fun h' hne hok ↦
    hok.same (fun t ↦ by simp [Function.update_of_ne hne]) rfl rfl
  refine ⟨appended, htold, ?_⟩
  have hread : HoldsPost E op _ _ := hholds (ledger t) _ (hw.logs t)
  refine hread.le ⟨fun t' ↦ Or.inr ?_, rfl⟩
  by_cases ht : t' = t
  · subst ht
    simp [World.known]
  · simp [World.known, ht]

/-- The log that changes holds what it is to hold, and the others what they did. -/
theorem logs_changeLog (hlogs : ∀ t, IsLog E t (ledger t) (w.directory t)) {t : Table}
    {m : SortedMap t.Key t.Record} {bytes : List UInt8} (hlog : IsLog E t m (some bytes))
    (h : ι) (keeps : Bool) (t' : Table) :
    IsLog E t' (Function.update ledger t m t') ((w.changeLog h t keeps bytes).directory t') := by
  by_cases ht : t' = t
  · subst ht
    simpa [World.changeLog] using hlog
  · simpa [World.changeLog, ht] using hlogs t'

theorem Inv.append (hE : E.Lawful) {op : Operation} {t : Table} {bytes : List UInt8}
    {k : Unit → Requests} (hw : Inv E w ledger) (hfresh : w.Fresh E h)
    (hh : w.handles h = .busy op (.ask (.append t bytes) k)) :
    ∃ ledger', Inv E { w.changeLog h t true ((w.directory t).getD [] ++ bytes) with
      handles := Function.update w.handles h (.busy op (k ()))
      history := w.history ++ op.events } ledger' := by
  have hbusy := hw.handles h
  rw [hh] at hbusy
  obtain ⟨appended, -, r, rfl, hcheck, rfl, hholds⟩ := hbusy
  refine ⟨Function.update ledger t (t.put (ledger t) r),
    logs_changeLog hw.logs ((hw.logs t).append hE hcheck) h true, ?_, ?_, ?_, ?_⟩
  · intro t' temp htemp hcurrent
    by_cases ht : t' = t
    · subst ht
      simp only [World.changeLog, Function.update_self, Option.map_eq_some_iff] at htemp
      obtain ⟨temp, -, rfl⟩ := htemp
      cases hcurrent
    · simp only [World.changeLog, Function.update_of_ne ht] at htemp
      rw [Function.update_of_ne ht]
      exact hw.temps t' temp htemp hcurrent
  · refine handles_update hw.handles rfl ?_ fun h' hne hok ↦ ?_
    · refine ⟨true, fun _ t' r' heq ↦ ?_, HoldsPost.le hholds ⟨fun t' ↦ Or.inr ?_, rfl⟩⟩
      · cases heq
        exact List.mem_append_right _ List.mem_cons_self
      · exact known_changeLog_self t (t.put · r) [] t'
    · refine hok.mono (known_changeLog hne t _ true []) (fun t' temp' htemp' hauthor ↦ ?_)
        fun e he ↦ List.mem_append_left _ he
      by_cases ht : t' = t
      · subst ht
        simp only [World.changeLog, Function.update_self, Option.map_eq_some_iff] at htemp'
        obtain ⟨temp, htemp, rfl⟩ := htemp'
        exact ⟨temp, htemp, hauthor, rfl⟩
      · simp only [World.changeLog, Function.update_of_ne ht] at htemp'
        exact ⟨temp', htemp', hauthor, rfl⟩
  · exact fun t' r' hmem ↦ List.mem_append_left _ (hw.told t' r' hmem)
  · intro t' r' before later hhistory
    simp only [World.Fresh, hh] at hfresh
    refine kept_wrote hw.kept (hfresh.imp_right fun hfresh r' hr' ↦ ?_) hhistory
    have hkey : t.key r' = t.key r := (hw.logs t).keyed _ _ hr'
    exact hfresh r' (hw.finds.mpr (hkey ▸ hr')) hkey

theorem Inv.writeTemp {op : Operation} {t : Table} {bytes : List UInt8} {evicted : t.Key → Bool}
    {k : Bool → Requests} (hw : Inv E w ledger)
    (hh : w.handles h = .busy op (.ask (.rewrite t bytes evicted) k)) :
    Inv E { w with
      handles := Function.update w.handles h (.beforeRename op t k)
      temps := Function.update w.temps t (some ⟨bytes, evicted, h, w.current h t⟩) } ledger := by
  have hbusy := hw.handles h
  rw [hh] at hbusy
  obtain ⟨appended, htold, hbytes, htrue, hfalse⟩ := hbusy
  refine ⟨hw.logs, fun t' temp htemp hcurrent ↦ ?_, ?_, hw.told, hw.kept⟩
  · by_cases ht : t' = t
    · subst ht
      simp only [Function.update_self, Option.some.injEq] at htemp
      subst htemp
      exact hbytes (ledger t') (if_pos hcurrent)
    · simp only [Function.update_of_ne ht] at htemp
      exact hw.temps t' temp htemp hcurrent
  · refine handles_update hw.handles rfl ?_ fun h' hne hok ↦ ?_
    · refine ⟨appended, evicted, htold, fun temp htemp _ ↦ ?_, htrue, hfalse⟩
      simp only [Function.update_self, Option.some.injEq] at htemp
      rw [← htemp]
    · refine hok.mono (fun _ ↦ Or.inr rfl) (fun t' temp' htemp' hauthor ↦ ?_) fun _ he ↦ he
      by_cases ht : t' = t
      · subst ht
        simp only [Function.update_self, Option.some.injEq] at htemp'
        rw [← htemp'] at hauthor
        exact absurd hauthor.symm hne
      · simp only [Function.update_of_ne ht] at htemp'
        exact ⟨temp', htemp', hauthor, rfl⟩

theorem Inv.renameMissing {op : Operation} {t : Table} {k : Bool → Requests} (hw : Inv E w ledger)
    (hh : w.handles h = .beforeRename op t k) :
    Inv E { w with
      handles := Function.update w.handles h (.busy op (k false))
      current := Function.update w.current h fun _ ↦ false } ledger := by
  have hrename := hw.handles h
  rw [hh] at hrename
  obtain ⟨appended, evicted, htold, -, -, hfalse⟩ := hrename
  refine ⟨hw.logs, hw.temps, ?_, hw.told, hw.kept⟩
  refine handles_update hw.handles rfl ?_ fun h' hne hok ↦
    hok.same (fun t ↦ by simp [Function.update_of_ne hne]) rfl rfl
  exact ⟨appended, htold, hfalse.le ⟨fun t' ↦ Or.inr (by simp [World.known, View.blind]), rfl⟩⟩

theorem Inv.rename (hE : E.Lawful) {op : Operation} {t : Table} {k : Bool → Requests}
    {temp : Temp ι t} (hw : Inv E w ledger) (hh : w.handles h = .beforeRename op t k)
    (htemp : w.temps t = some temp) (hcurrent : temp.current = true) :
    ∃ ledger', Inv E { w.changeLog h t (decide (temp.author = h)) temp.bytes with
      temps := Function.update w.temps t none
      handles := Function.update w.handles h (.busy op (k true))
      history := w.history ++ [.evicted t temp.evicted] } ledger' := by
  have hrename := hw.handles h
  rw [hh] at hrename
  obtain ⟨appended, evicted, htold, hlabel, htrue, -⟩ := hrename
  have hlog := isLog_canonicalBytes hE ((hw.logs t).keyed.without temp.evicted)
    ((hw.logs t).checked.without temp.evicted)
  rw [← hw.temps t temp htemp hcurrent] at hlog
  refine ⟨Function.update ledger t (without (ledger t) temp.evicted),
    logs_changeLog hw.logs hlog h (decide (temp.author = h)), ?_, ?_, ?_, ?_⟩
  · intro t' temp' htemp' hcurrent'
    by_cases ht : t' = t
    · subst ht
      simp at htemp'
    · simp only [Function.update_of_ne ht] at htemp'
      rw [Function.update_of_ne ht]
      exact hw.temps t' temp' htemp' hcurrent'
  · refine handles_update hw.handles rfl ?_ fun h' hne hok ↦ ?_
    · refine ⟨appended, fun ha t' r heq ↦ List.mem_append_left _ (htold ha t' r heq),
        HoldsPost.le htrue ⟨fun t' ↦ ?_, rfl⟩⟩
      by_cases hauthor : temp.author = h
      · rw [← hlabel temp htemp hauthor, decide_eq_true hauthor]
        exact Or.inr (known_changeLog_self t (without · temp.evicted) [] t')
      · by_cases ht : t' = t
        · exact Or.inl (by simp [World.known, World.changeLog, ht, hauthor])
        · exact Or.inr (by simp [World.known, World.changeLog, View.rewrote, ht])
    · refine hok.mono (known_changeLog hne t _ (decide (temp.author = h)) []) (fun t' temp' htemp' hauthor ↦ ?_)
        fun e he ↦ List.mem_append_left _ he
      by_cases ht : t' = t
      · subst ht
        simp at htemp'
      · simp only [Function.update_of_ne ht] at htemp'
        exact ⟨temp', htemp', hauthor, rfl⟩
  · exact fun t' r' hmem ↦ List.mem_append_left _ (hw.told t' r' hmem)
  · exact fun t' r' before later hhistory ↦ kept_evicted hw.kept hhistory

/-- A turn that loses nothing keeps the invariant. -/
theorem Inv.step (hE : E.Lawful) (hw : Inv E w ledger) (hfresh : w.Fresh E h) (op : Operation) :
    ∃ ledger', Inv E (w.step E h op) ledger' := by
  unfold World.step
  cases hh : w.handles h with
  | idle c => exact ⟨ledger, hw.begin hh op⟩
  | busy op p =>
      cases p with
      | done a => exact ⟨ledger, hw.finish hh⟩
      | ask a k =>
          cases a with
          | read t => exact ⟨ledger, hw.read hh⟩
          | append t bytes => exact hw.append hE hfresh hh
          | rewrite t bytes evicted => exact ⟨ledger, hw.writeTemp hh⟩
  | beforeRename op t k =>
      cases htemp : w.temps t with
      | none =>
          dsimp only
          rw [htemp]
          exact ⟨ledger, hw.renameMissing hh⟩
      | some temp =>
          simp only [World.Fresh, hh] at hfresh
          dsimp only
          rw [htemp]
          exact hw.rename hE hh htemp (hfresh temp htemp)

end Step

/-! ## Runs -/

theorem inv_start {d : Directory} {ledger : InMemoryCache} (hd : ∀ t, IsLog E t (ledger t) (d t)) :
    Inv E (World.start ι d) ledger where
  logs := hd
  temps := nofun
  handles h := ⟨fun _ _ ↦ rfl, fun t ↦ keyed_empty t, nofun⟩
  told t r hmem := absurd hmem List.not_mem_nil
  kept t r before later hhistory := absurd hhistory (by simp [World.start])

/-- Any handle takes the next turn, which loses nothing. -/
def FreshTurn (E : Crates) [DecidableEq ι] (w w' : World ι) : Prop :=
  ∃ h op, w.Fresh E h ∧ w' = w.step E h op

theorem Inv.nothingLost {w : World ι} {ledger : InMemoryCache} (hw : Inv E w ledger) :
    w.NothingLost E :=
  ⟨hw.told, fun t r before later hhistory ↦
    (hw.kept t r before later hhistory).imp_left hw.finds.mpr⟩

/-- Some turns of one handle, which begins `op` if it is idle. -/
def World.turns [DecidableEq ι] (E : Crates) (w : World ι) (h : ι) (op : Operation) : Nat → World ι
  | 0 => w
  | n + 1 => (w.step E h op).turns E h op n

theorem turn_turns [DecidableEq ι] {w₀ w : World ι} (hw : Relation.ReflTransGen (Turn E) w₀ w) (h : ι)
    (op : Operation) (n : Nat) : Relation.ReflTransGen (Turn E) w₀ (w.turns E h op n) := by
  induction n generalizing w with
  | zero => exact hw
  | succ n ih => exact ih (hw.tail ⟨h, op, rfl⟩)

/-- A plan with nothing but its id. -/
def planOf (id : Text) : QueryPlanRecord := ⟨id, [], none, [], [], [], [], [], none, false, 0⟩

/-- One handle loads the plans; the other one writes a plan; the first one writes
another plan twice and compacts. -/
def compactedWorld (E : Crates) : World Bool :=
  ((((World.start Bool fun _ ↦ none).turns E true (.lookup (.queryPlan ['b'])) 3).turns E false
    (.write .queryPlans (planOf ['a'])) 4).turns E true
      (.write .queryPlans (planOf ['b'])) 6).turns E true .compact 6

theorem compactedWorld_eq (E : Crates) :
    (compactedWorld E).directory .queryPlans =
        some (Utf8.encode (lineText E .queryPlans (planOf ['b']))) ∧
      (compactedWorld E).history = [.wrote .queryPlans (planOf ['a'])] ++
        [.wrote .queryPlans (planOf ['b']), .wrote .queryPlans (planOf ['b']),
          .evicted .queryPlans fun _ ↦ false] := by
  have hvalues : (Table.queryPlans.put (Table.queryPlans.put (InMemoryCache.new .queryPlans)
    (planOf ['b'])) (planOf ['b'])).values = [planOf ['b']] := by decide
  have hnew (t : Table) : (InMemoryCache.new t).values = [] := rfl
  simp [compactedWorld, World.turns, World.step, World.start, World.changeLog, Operation.program,
    Operation.events, lookup, Lookup.table, write, InMemoryCache.write, Table.check, appendLine,
    Table.isUpsert, maybeLazyCompactUpsert, compactsLazily, lazyCompactMinSupersededLines,
    compactUpsertTables, compactSingleTable, rewriteTableAtomic, setTableLineCount,
    ensureTableLoaded, loadTable, FileCache.open, Program.bind, pure, Except.pure, bind, Except.bind,
    FileM.get_apply, FileM.modify_apply, FileM.request_apply, hvalues, hnew]

end FrankenSnowflake.Cache
