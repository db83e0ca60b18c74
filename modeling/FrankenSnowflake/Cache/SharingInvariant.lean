import FrankenSnowflake.Cache.Sharing

/-!
# What handles know of shared logs

A handle that nobody disturbed knows what a log holds; with that, each operation
keeps its tables in memory in step with the logs.  The invariant of the shared
directory gives every handle the knowledge that it has not lost.
-/

namespace FrankenSnowflake.Cache

open Foundation

variable {E : Crates}

/-! ## Logs -/

/-- A log of complete valid lines, and what it holds. -/
def IsLog (E : Crates) (t : Table) (m : SortedMap t.Key t.Record) (log : Option (List UInt8)) : Prop :=
  ∃ ls rs, ValidLines E t ls rs ∧ m = recordsOf t rs ∧
    (log = some (Utf8.encode (unlines ls)) ∨ log = none ∧ rs = [])

theorem IsLog.keyed {t : Table} {m : SortedMap t.Key t.Record} {log : Option (List UInt8)}
    (h : IsLog E t m log) : Keyed t m := by
  obtain ⟨ls, rs, -, rfl, -⟩ := h
  exact keyed_recordsOf t rs

theorem IsLog.checked {t : Table} {m : SortedMap t.Key t.Record} {log : Option (List UInt8)}
    (h : IsLog E t m log) : Checked E t m := by
  obtain ⟨ls, rs, hlines, rfl, -⟩ := h
  exact checked_recordsOf hlines.checks

theorem IsLog.append (hE : E.Lawful) {t : Table} {m : SortedMap t.Key t.Record}
    {log : Option (List UInt8)} (h : IsLog E t m log) {r : t.Record} (hr : t.check E r = .ok ()) :
    IsLog E t (t.put m r) (some (log.getD [] ++ Utf8.encode (lineText E t r))) := by
  obtain ⟨ls, rs, hlines, rfl, hlog⟩ := h
  have hline := validLine_toString hE hr
  have hone : lineText E t r = unlines [E.toString t ⟨lineVersion, r⟩] := by
    rw [unlines_cons, unlines_nil]
    rfl
  rcases hlog with rfl | ⟨rfl, rfl⟩
  · refine ⟨ls ++ [_], rs ++ [r], List.rel_append hlines (.cons hline .nil), ?_, Or.inl ?_⟩
    · rw [recordsOf_append]
      rfl
    · rw [hone, Option.getD_some, ← Utf8.encode_append, unlines_append]
  · exact ⟨[_], [r], .cons hline .nil, rfl, Or.inl (by rw [hone]; rfl)⟩

/-- The canonical lines of a table. -/
theorem isLog_canonicalBytes (hE : E.Lawful) {t : Table} {m : SortedMap t.Key t.Record}
    (hm : Keyed t m) (hc : Checked E t m) : IsLog E t m (some (canonicalBytes E t m)) :=
  ⟨_, m.values, validLines_toString hE hc, (recordsOf_values hm).symm,
    Or.inl (by rw [canonicalBytes, flatMap_lineText])⟩

/-- A handle that did not load a table loads its log. -/
theorem run_ensureTableLoaded_isLog {t : Table} {c : FileCache} {d : Directory}
    {m : SortedMap t.Key t.Record} (h : c.loadedTables t = false) (hempty : c.inner t = .empty)
    (hlog : IsLog E t m (d t)) :
    ∃ count, (ensureTableLoaded E t).run c d = ((.ok (), c.load t m count), d) := by
  obtain ⟨ls, rs, hlines, rfl, hlog | ⟨hlog, rfl⟩⟩ := hlog
  · refine ⟨rs.length, run_ensureTableLoaded_valid h hempty hlines List.not_mem_nil ?_⟩
    rw [hlog, List.append_nil]
  · refine ⟨0, ?_⟩
    rw [run_ensureTableLoaded_absent h hlog, hempty]
    rfl

/-! ## Knowledge -/

/-- What a handle knows of the logs, and whether its operation has appended. -/
@[ext] structure View where
  tables : (t : Table) → Option (SortedMap t.Key t.Record)
  appended : Bool

/-- A view with no less knowledge. -/
structure View.le (v' v : View) : Prop where
  tables : ∀ t, v'.tables t = none ∨ v'.tables t = v.tables t
  appended : v'.appended = v.appended

namespace View

/-- What a table has is known, or nothing of it. -/
def set (v : View) (t : Table) (m : Option (SortedMap t.Key t.Record)) : View :=
  { v with tables := Function.update v.tables t m }

@[simp] theorem set_self (v : View) (t : Table) (m : Option (SortedMap t.Key t.Record)) :
    (v.set t m).tables t = m := Function.update_self _ _ _

@[simp] theorem set_of_ne (v : View) {t t' : Table} (m : Option (SortedMap t.Key t.Record))
    (h : t' ≠ t) : (v.set t m).tables t' = v.tables t' := Function.update_of_ne h _ _

/-- The knowledge after an append. -/
def wrote (v : View) (t : Table) (r : t.Record) : View :=
  ⟨(v.set t ((v.tables t).map (t.put · r))).tables, true⟩

/-- The knowledge after a rewrite. -/
def rewrote (v : View) (t : Table) (evicted : t.Key → Bool) : View :=
  v.set t ((v.tables t).map (without · evicted))

/-- The knowledge of nothing. -/
def blind (v : View) : View := ⟨fun _ ↦ none, v.appended⟩

section Le

variable {v v' : View} (h : v'.le v) (t : Table)
include h

theorem le.set {m m' : Option (SortedMap t.Key t.Record)} (hm : m' = none ∨ m' = m) :
    (v'.set t m').le (v.set t m) := by
  refine ⟨fun t' ↦ ?_, h.appended⟩
  by_cases ht : t' = t
  · subst ht
    simpa [View.set] using hm
  · simpa [View.set, ht] using h.tables t'

theorem le.map (f : SortedMap t.Key t.Record → SortedMap t.Key t.Record) :
    (v'.set t ((v'.tables t).map f)).le (v.set t ((v.tables t).map f)) := by
  apply h.set
  rcases h.tables t with hnone | heq
  · exact Or.inl (by rw [hnone]; rfl)
  · exact Or.inr (by rw [heq])

theorem le.wrote (r : t.Record) : (v'.wrote t r).le (v.wrote t r) :=
  ⟨(h.map t (t.put · r)).tables, rfl⟩

theorem le.rewrote (evicted : t.Key → Bool) : (v'.rewrote t evicted).le (v.rewrote t evicted) :=
  h.map t _

theorem le.blind : v'.blind.le v.blind := ⟨fun _ ↦ Or.inl rfl, h.appended⟩

end Le

end View

/-- What the requests of an operation are to keep to, and what the handle knows
after them. -/
def Spec (E : Crates) (op : Operation) :
    (a : FileAction) → View → (a.Reply → View → Prop) → Prop
  | .read t, v, P => ∀ m log, IsLog E t m log → P log (v.set t (some m))
  | .append t bytes, v, P => ∃ r, op = .write t r ∧ t.check E r = .ok () ∧
      bytes = Utf8.encode (lineText E t r) ∧ P () (v.wrote t r)
  | .rewrite t bytes evicted, v, P =>
      (∀ m, v.tables t = some m → bytes = canonicalBytes E t (without m evicted)) ∧
        P true (v.rewrote t evicted) ∧ P false v.blind

theorem spec_monotone (op : Operation) : Program.Monotone (Spec E op) := by
  intro a v P Q hPQ h
  cases a with
  | read t => exact fun m log hlog ↦ hPQ _ _ (h m log hlog)
  | append t bytes =>
      obtain ⟨r, hop, hcheck, hbytes, hP⟩ := h
      exact ⟨r, hop, hcheck, hbytes, hPQ _ _ hP⟩
  | rewrite t bytes evicted => exact ⟨h.1, hPQ _ _ h.2.1, hPQ _ _ h.2.2⟩

/-- Requests keep to their specification with less knowledge. -/
theorem spec_le {op : Operation} {a : FileAction} {v v' : View} {P : a.Reply → View → Prop}
    (hle : v'.le v) (h : Spec E op a v P) :
    Spec E op a v' fun reply w' ↦ ∃ w, w'.le w ∧ P reply w := by
  cases a with
  | read t => exact fun m log hlog ↦ ⟨_, hle.set t (Or.inr rfl), h m log hlog⟩
  | append t bytes =>
      obtain ⟨r, hop, hcheck, hbytes, hP⟩ := h
      exact ⟨r, hop, hcheck, hbytes, _, hle.wrote t r, hP⟩
  | rewrite t bytes evicted =>
      obtain ⟨hbytes, htrue, hfalse⟩ := h
      refine ⟨fun m hm ↦ hbytes m ?_, ⟨_, hle.rewrote t evicted, htrue⟩, ⟨_, hle.blind, hfalse⟩⟩
      rcases hle.tables t with hnone | heq
      · rw [hnone] at hm
        cases hm
      · rw [← heq, hm]

/-! ## Operations keep in step -/

/-- The tables in memory agree with what is known of the logs. -/
structure Synced (c : FileCache) (v : View) : Prop where
  isLazy : c.Lazy
  keyed : ∀ t, Keyed t (c.inner t)
  inner : ∀ t m, v.tables t = some m → c.inner t = m

theorem Synced.le {c : FileCache} {v v' : View} (h : Synced c v) (hle : v'.le v) : Synced c v' := by
  refine ⟨h.isLazy, h.keyed, fun t m hm ↦ h.inner t m ?_⟩
  rcases hle.tables t with hnone | heq
  · rw [hnone] at hm
    cases hm
  · rw [← heq, hm]

/-- One table changes, in memory and in the log. -/
theorem Synced.set {c c' : FileCache} {v v' : View} (h : Synced c v) {t : Table}
    {m : SortedMap t.Key t.Record} (hm : Keyed t m) (hinner : c'.inner = Function.update c.inner t m)
    (hloaded : ∀ t', c'.loadedTables t' = false → t' ≠ t ∧ c.loadedTables t' = false)
    (hother : ∀ t', t' ≠ t → v'.tables t' = v.tables t')
    (hknown : ∀ m', v'.tables t = some m' → m = m') : Synced c' v' := by
  refine ⟨fun t' ht' ↦ ?_, fun t' ↦ ?_, fun t' m' hm' ↦ ?_⟩
  · obtain ⟨hne, ht'⟩ := hloaded t' ht'
    rw [hinner, Function.update_of_ne hne]
    exact h.isLazy t' ht'
  · by_cases ht : t' = t
    · subst ht
      rwa [hinner, Function.update_self]
    · rw [hinner, Function.update_of_ne ht]
      exact h.keyed t'
  · by_cases ht : t' = t
    · subst ht
      rw [hinner, Function.update_self]
      exact hknown m' hm'
    · rw [hinner, Function.update_of_ne ht]
      exact h.inner t' m' (hother t' ht ▸ hm')

theorem Synced.load {c : FileCache} {v : View} (h : Synced c v) {t : Table}
    {m : SortedMap t.Key t.Record} (hm : Keyed t m) (count : Nat) :
    Synced (c.load t m count) (v.set t (some m)) := by
  refine h.set hm rfl (fun t' ht' ↦ ?_) (fun t' ht' ↦ v.set_of_ne _ ht') fun m' hm' ↦ ?_
  · by_cases ht : t' = t
    · subst ht
      simp [FileCache.load] at ht'
    · exact ⟨ht, by simpa [FileCache.load, ht] using ht'⟩
  · rw [View.set_self] at hm'
    exact Option.some.inj hm'

theorem Synced.written {c : FileCache} {v : View} (h : Synced c v) {t : Table}
    (ht : c.loadedTables t = true) (r : t.Record) : Synced (c.written t r) (v.wrote t r) := by
  refine h.set ((h.keyed t).put r) rfl (fun t' ht' ↦ ⟨?_, ht'⟩) (fun t' ht' ↦ v.set_of_ne _ ht')
    fun m' hm' ↦ ?_
  · rintro rfl
    exact absurd ht' (by simp [FileCache.written, ht])
  · obtain ⟨m, hm, rfl⟩ := Option.map_eq_some_iff.mp ((v.set_self t _).symm.trans hm')
    rw [h.inner t m hm]

/-- Line counts do not matter. -/
theorem Synced.count {c : FileCache} {v : View} (h : Synced c v) (counts : Table → Nat) :
    Synced { c with tableLineCounts := counts } v := ⟨h.isLazy, h.keyed, h.inner⟩

/-- A rewrite that evicts nothing. -/
theorem Synced.compacted {c : FileCache} {v : View} (h : Synced c v) (t : Table) :
    Synced c (v.rewrote t fun _ ↦ false) := by
  refine h.le ⟨fun t' ↦ Or.inr ?_, rfl⟩
  by_cases ht : t' = t
  · subst ht
    rw [View.rewrote, View.set_self]
    simp only [without_none]
    exact congrFun Option.map_id _
  · exact v.set_of_ne _ ht

theorem Synced.blind {c : FileCache} {v : View} (h : Synced c v) : Synced c v.blind :=
  ⟨h.isLazy, h.keyed, nofun⟩

/-- An operation of a handle that keeps to the specification. -/
def Meets (E : Crates) (op : Operation) {α : Type} (x : FileM α) (c : FileCache) (v : View)
    (Q : CacheResult α → FileCache → View → Prop) : Prop :=
  Program.Holds (Spec E op) (fun a v' ↦ Q a.1 a.2 v') (x c) v

section Meets

variable {op : Operation} {α β : Type}

theorem Meets.mono {x : FileM α} {c : FileCache} {v : View}
    {P Q : CacheResult α → FileCache → View → Prop} (h : Meets E op x c v P)
    (hPQ : ∀ a c' v', P a c' v' → Q a c' v') : Meets E op x c v Q :=
  Program.Holds.mono (Φ := Spec E op) (spec_monotone op)
    (P := fun (a : CacheResult α × FileCache) v' ↦ P a.1 a.2 v') (fun a v' ↦ hPQ a.1 a.2 v') h

theorem Meets.bind {x : FileM α} {f : α → FileM β} {c : FileCache} {v : View}
    {P : CacheResult α → FileCache → View → Prop} {Q : CacheResult β → FileCache → View → Prop}
    (hx : Meets E op x c v P) (hok : ∀ a c' v', P (.ok a) c' v' → Meets E op (f a) c' v' Q)
    (herror : ∀ e c' v', P (.error e) c' v' → Q (.error e) c' v') :
    Meets E op (x >>= f) c v Q := by
  refine Program.Holds.bind (Φ := Spec E op) (spec_monotone op) hx fun a v' ha ↦ ?_
  obtain ⟨a, c'⟩ := a
  cases a with
  | error e => exact herror e c' v' ha
  | ok a => exact hok a c' v' ha

theorem meets_get_bind {f : FileCache → FileM α} {c : FileCache} {v : View}
    {Q : CacheResult α → FileCache → View → Prop} :
    Meets E op (FileM.get >>= f) c v Q ↔ Meets E op (f c) c v Q := Iff.rfl

theorem meets_modify_bind {g : FileCache → FileCache} {f : Unit → FileM α} {c : FileCache} {v : View}
    {Q : CacheResult α → FileCache → View → Prop} :
    Meets E op (FileM.modify g >>= f) c v Q ↔ Meets E op (f ()) (g c) v Q := Iff.rfl

end Meets

section Operations

variable {op : Operation} {c : FileCache} {v : View}

theorem FileM.get_apply (c : FileCache) : FileM.get c = .done (.ok c, c) := rfl

theorem FileM.modify_apply (f : FileCache → FileCache) (c : FileCache) :
    FileM.modify f c = .done (.ok (), f c) := rfl

theorem FileM.request_apply (a : FileAction) (c : FileCache) :
    FileM.request a c = .ask a fun reply ↦ .done (.ok reply, c) := rfl

@[simp] theorem FileM.get_bind {α : Type} (f : FileCache → FileM α) (c : FileCache) :
    (FileM.get >>= f) c = f c c := rfl

@[simp] theorem FileM.modify_bind {α : Type} (g : FileCache → FileCache) (f : Unit → FileM α)
    (c : FileCache) : (FileM.modify g >>= f) c = f () (g c) := rfl

@[simp] theorem FileM.request_bind {α : Type} (a : FileAction) (f : a.Reply → FileM α)
    (c : FileCache) : (FileM.request a >>= f) c = .ask a fun reply ↦ f reply c := rfl

/-- A table that is not loaded is read once. -/
theorem ensureTableLoaded_ask {t : Table} (h : c.loadedTables t = false) :
    ensureTableLoaded E t c = .ask (.read t) fun log ↦
      .done ((ensureTableLoaded E t).run c (Function.update (fun _ ↦ none) t log)).1 := by
  obtain ⟨k, hk, hdone⟩ : ∃ k, ensureTableLoaded E t c = .ask (.read t) k ∧
      ∀ log, ∃ b, k log = .done b := by
    unfold ensureTableLoaded
    rw [FileM.get_bind]
    simp only [h, Bool.false_eq_true, if_false]
    refine ⟨_, rfl, fun log ↦ ?_⟩
    rcases log with - | bytes
    · exact ⟨_, rfl⟩
    · cases hdecode : Utf8.decode bytes with
      | none => exact ⟨_, by simp only [Program.bind, hdecode]; rfl⟩
      | some content => exact ⟨_, by simp only [Program.bind, hdecode]; rfl⟩
  rw [hk]
  refine congrArg _ (funext fun log ↦ ?_)
  obtain ⟨b, hb⟩ := hdone log
  rw [FileM.run, hk, Program.run, Directory.perform, Function.update_self, hb]
  rfl

/-- A load finds what the log holds. -/
theorem meets_ensureTableLoaded (t : Table) (h : Synced c v) :
    Meets E op (ensureTableLoaded E t) c v fun a c' v' ↦
      a = .ok () ∧ Synced c' v' ∧ c'.loadedTables t = true ∧ v'.appended = v.appended := by
  unfold Meets
  cases hloaded : c.loadedTables t with
  | true =>
      have hdone : ensureTableLoaded E t c = .done (.ok (), c) := by
        unfold ensureTableLoaded
        rw [FileM.get_bind, if_pos hloaded]
        rfl
      rw [hdone]
      exact ⟨rfl, h, hloaded, rfl⟩
  | false =>
      rw [ensureTableLoaded_ask hloaded]
      intro m log hlog
      obtain ⟨count, hrun⟩ := run_ensureTableLoaded_isLog (d := Function.update (fun _ ↦ none) t log)
        hloaded (h.isLazy t hloaded) (by rwa [Function.update_self])
      dsimp only
      rw [hrun]
      exact ⟨rfl, h.load hlog.keyed count, Function.update_self _ _ _, rfl⟩

/-- A rewrite with the records in memory. -/
theorem meets_rewriteTableAtomic {t : Table} {m : SortedMap t.Key t.Record} {evicted : t.Key → Bool}
    (h : ∀ m', v.tables t = some m' → m = without m' evicted) :
    Meets E op (rewriteTableAtomic E t m.values evicted) c v fun a c' v' ↦
      c' = c ∧ v'.appended = v.appended ∧
        (a = .ok () ∧ v' = v.rewrote t evicted ∨ a ≠ .ok () ∧ v' = v.blind) := by
  refine ⟨fun m' hm' ↦ ?_, ?_, ?_⟩
  · rw [← h m' hm']
    rfl
  · exact ⟨rfl, rfl, Or.inl ⟨rfl, rfl⟩⟩
  · exact ⟨rfl, rfl, Or.inr ⟨nofun, rfl⟩⟩

/-- The operation may have failed, but it kept the tables in step. -/
def Keeps {α : Type} (v : View) (_ : CacheResult α) (c' : FileCache) (v' : View) : Prop :=
  Synced c' v' ∧ v'.appended = v.appended

theorem Keeps.trans {α β : Type} {a : CacheResult α} {b : CacheResult β} {c' c'' : FileCache}
    {v' v'' : View} (h : Keeps v a c' v') (h' : Keeps v' b c'' v'') : Keeps v b c'' v'' :=
  ⟨h'.1, h'.2.trans h.2⟩

/-- Operations that keep the tables in step, one after the other. -/
theorem Meets.keeps {α β : Type} {x : FileM α} {f : α → FileM β} (hx : Meets E op x c v (Keeps v))
    (hf : ∀ a c' v', Synced c' v' → Meets E op (f a) c' v' (Keeps v')) :
    Meets E op (x >>= f) c v (Keeps v) :=
  hx.bind (fun a c' v' h ↦ (hf a c' v' h.1).mono fun _ _ _ h' ↦ h.trans h') fun _ _ _ h ↦ h

/-- A rewrite with all records in memory. -/
theorem meets_rewriteCanonical {t : Table} (h : Synced c v) :
    Meets E op (rewriteTableAtomic E t (c.inner t).values fun _ ↦ false) c v (Keeps v) := by
  have hsame : ∀ m, v.tables t = some m → c.inner t = without m fun _ ↦ false := by
    intro m hm
    rw [without_none, h.inner t m hm]
  refine (meets_rewriteTableAtomic hsame).mono ?_
  rintro a c' v' ⟨rfl, happended, ⟨-, rfl⟩ | ⟨-, rfl⟩⟩
  · exact ⟨h.compacted t, happended⟩
  · exact ⟨h.blind, happended⟩

theorem meets_setTableLineCount {t : Table} {count : Nat} (h : Synced c v) :
    Meets E op (setTableLineCount t count) c v (Keeps v) := ⟨h.count _, rfl⟩

theorem meets_maybeLazyCompactUpsert (t : Table) (h : Synced c v) :
    Meets E op (maybeLazyCompactUpsert E t) c v (Keeps v) := by
  rw [maybeLazyCompactUpsert, meets_get_bind]
  dsimp only
  split_ifs
  · exact (meets_rewriteCanonical h).keeps fun _ _ _ hsync ↦ meets_setTableLineCount hsync
  · exact ⟨h, rfl⟩

theorem meets_appendLine {t : Table} {r : t.Record} (hcheck : t.check E r = .ok ())
    {c' : FileCache} (hc' : c' = { c with inner := Function.update c.inner t (t.put (c.inner t) r) }) :
    Meets E (.write t r) (appendLine E t r) c' v fun a c'' v' ↦
      a = .ok () ∧ c'' = c.written t r ∧ v' = v.wrote t r := by
  subst hc'
  exact ⟨r, rfl, hcheck, rfl, rfl, rfl, rfl⟩

/-- What is to hold after an operation. -/
def Post (op : Operation) {α : Type} (a : CacheResult α) (c : FileCache) (v : View) : Prop :=
  Synced c v ∧ (a.isOk = true → ∀ t r, op = .write t r → v.appended = true)

theorem meets_write (t : Table) (r : t.Record) (h : Synced c v) :
    Meets E (.write t r) (write E t r) c v (Post (.write t r)) := by
  refine (meets_ensureTableLoaded t h).bind ?_ fun e c' v' ⟨hok, _⟩ ↦ nomatch hok
  rintro ⟨⟩ c' v' ⟨-, hsync, hloaded, -⟩
  rw [meets_get_bind]
  have hwrite : c'.inner.write E t r =
      (t.check E r).map fun _ ↦ Function.update c'.inner t (t.put (c'.inner t) r) := by
    unfold InMemoryCache.write
    cases t.check E r <;> rfl
  rw [hwrite]
  cases hcheck : t.check E r with
  | error e => exact ⟨hsync, nofun⟩
  | ok a =>
      refine (meets_appendLine hcheck rfl).bind ?_ fun e c'' v'' ⟨hok, _⟩ ↦ nomatch hok
      rintro ⟨⟩ c'' v'' ⟨-, rfl, rfl⟩
      have hwritten := hsync.written hloaded r
      cases t.isUpsert with
      | true =>
          refine (meets_maybeLazyCompactUpsert t hwritten).mono fun a c'' v'' ⟨hsync, happended⟩ ↦ ?_
          exact ⟨hsync, fun _ _ _ _ ↦ happended⟩
      | false => exact ⟨hwritten, fun _ _ _ _ ↦ rfl⟩

/-- Operations that do not append. -/
theorem Keeps.post {α : Type} {a : CacheResult α} {c' : FileCache} {v' : View}
    (h : Keeps v a c' v') (hop : ∀ t r, op ≠ .write t r) : Post op a c' v' :=
  ⟨h.1, fun _ t r heq ↦ absurd heq (hop t r)⟩

theorem meets_pure {α : Type} (a : α) (h : Synced c v) : Meets E op (pure a) c v (Keeps v) := ⟨h, rfl⟩

theorem meets_load (t : Table) (h : Synced c v) : Meets E op (ensureTableLoaded E t) c v (Keeps v) :=
  (meets_ensureTableLoaded t h).mono fun _ _ _ ⟨_, hsync, _, happended⟩ ↦ ⟨hsync, happended⟩

theorem meets_lookup (l : Lookup) (h : Synced c v) : Meets E op (lookup E l) c v (Keeps v) :=
  (meets_load l.table h).keeps fun _ _ _ hsync ↦ ⟨hsync, rfl⟩

theorem meets_ensureTablesLoaded (ts : List Table) (h : Synced c v) :
    Meets E op (ensureTablesLoaded E ts) c v (Keeps v) := by
  induction ts generalizing c v with
  | nil => exact meets_pure () h
  | cons t ts ih => exact (meets_load t h).keeps fun _ _ _ hsync ↦ ih hsync

theorem meets_skippedLines (h : Synced c v) : Meets E op (skippedLines E) c v (Keeps v) := by
  refine Meets.keeps (x := FileM.attempt (ensureAllLoaded E)) ?_ fun _ _ _ hsync ↦ ⟨hsync, rfl⟩
  exact Program.Holds.bind (Φ := Spec E op) (spec_monotone op) (meets_ensureTablesLoaded Table.all h)
    fun _ _ hkeeps ↦ hkeeps

theorem meets_compactSingleTable (t : Table) (report : CompactionReport) (h : Synced c v) :
    Meets E op (compactSingleTable E t report) c v (Keeps v) := by
  rw [compactSingleTable, meets_get_bind]
  dsimp only
  split_ifs
  · exact ⟨h, rfl⟩
  · exact (meets_rewriteCanonical h).keeps fun _ _ _ hsync ↦
      (meets_setTableLineCount hsync).keeps fun _ _ _ hsync ↦ ⟨hsync, rfl⟩

theorem meets_compactUpsertTables (h : Synced c v) :
    Meets E op (compactUpsertTables E) c v (Keeps v) :=
  (meets_load _ h).keeps fun _ _ _ h ↦ (meets_load _ h).keeps fun _ _ _ h ↦
    (meets_load _ h).keeps fun _ _ _ h ↦ (meets_compactSingleTable _ _ h).keeps fun _ _ _ h ↦
      (meets_compactSingleTable _ _ h).keeps fun _ _ _ h ↦ meets_compactSingleTable _ _ h

/-! ## Retention -/

/-- The tables in memory without what is evicted, while the logs of the tables
of a list are still to be rewritten. -/
structure Retaining (keys : (t : Table) → t.Key → Bool) (ts : List Table) (c : FileCache) (v : View) :
    Prop where
  isLazy : c.Lazy
  keyed : ∀ t, Keyed t (c.inner t)
  inner : ∀ t m, v.tables t = some m → c.inner t = if t ∈ ts then without m (keys t) else m

theorem meets_rewriteRetained {keys : (t : Table) → t.Key → Bool} {t : Table} {ts : List Table}
    (ht : t ∉ ts) (h : Retaining keys (t :: ts) c v) :
    Meets E op (rewriteRetained E t (keys t)) c v fun a c' v' ↦ v'.appended = v.appended ∧
      (a = .ok () ∧ Retaining keys ts c' v' ∨ a ≠ .ok () ∧ Synced c' v') := by
  rw [rewriteRetained, meets_get_bind]
  have hsame : ∀ m, v.tables t = some m → c.inner t = without m (keys t) := by
    intro m hm
    rw [h.inner t m hm, if_pos List.mem_cons_self]
  refine (meets_rewriteTableAtomic hsame).bind ?_ ?_
  · rintro ⟨⟩ c' v' ⟨rfl, happended, ⟨-, rfl⟩ | ⟨herror, -⟩⟩
    · refine ⟨happended, Or.inl ⟨rfl, h.isLazy, h.keyed, fun t' m hm ↦ ?_⟩⟩
      by_cases htt : t' = t
      · subst htt
        rw [View.rewrote, View.set_self] at hm
        obtain ⟨m', hm', rfl⟩ := Option.map_eq_some_iff.mp hm
        rw [if_neg ht]
        exact (h.inner t' m' hm').trans (if_pos List.mem_cons_self)
      · rw [View.rewrote, View.set_of_ne _ _ htt] at hm
        rw [if_congr (List.mem_cons.trans (or_iff_right htt)).symm rfl rfl]
        exact h.inner t' m hm
    · exact absurd rfl herror
  · rintro e c' v' ⟨rfl, happended, ⟨hok, -⟩ | ⟨-, rfl⟩⟩
    · cases hok
    · exact ⟨happended, Or.inr ⟨nofun, h.isLazy, h.keyed, nofun⟩⟩

theorem Retaining.synced {keys : (t : Table) → t.Key → Bool} (h : Retaining keys [] c v) :
    Synced c v := ⟨h.isLazy, h.keyed, h.inner⟩

attribute [irreducible] Meets

/-- A rewrite of the next table, and what follows it. -/
theorem Retaining.keeps {keys : (t : Table) → t.Key → Bool} {t : Table} {ts : List Table} {α : Type}
    {f : Unit → FileM α} (h : Retaining keys (t :: ts) c v) (ht : t ∉ ts)
    (hf : ∀ c' v', Retaining keys ts c' v' → Meets E op (f ()) c' v' (Keeps v')) :
    Meets E op (rewriteRetained E t (keys t) >>= f) c v (Keeps v) := by
  refine (meets_rewriteRetained ht h).bind ?_ ?_
  · rintro ⟨⟩ c' v' ⟨happended, ⟨-, hretaining⟩ | ⟨herror, -⟩⟩
    · exact (hf c' v' hretaining).mono fun _ _ _ h' ↦ ⟨h'.1, h'.2.trans happended⟩
    · exact absurd rfl herror
  · rintro e c' v' ⟨happended, ⟨hok, -⟩ | ⟨-, hsync⟩⟩
    · cases hok
    · exact ⟨hsync, happended⟩

/-- The tables that retention goes over. -/
def retainedTables (policy : RetentionPolicy) : List Table :=
  (if policy.maxReceiptsPerProfile.isSome then [.queryReceipts, .partitionMetadata] else []) ++
    if policy.maxSnapshotsPerScope.isSome then [.catalogSnapshots] else []

theorem evictedKeys_eq_false (c : InMemoryCache) {policy : RetentionPolicy} {t : Table}
    (ht : t ∉ retainedTables policy) (k : t.Key) : evictedKeys c policy t k = false := by
  obtain ⟨receipts, snapshots⟩ := policy
  cases t with
  | queryReceipts | partitionMetadata =>
      cases receipts with
      | none => rfl
      | some _ => exact absurd (by simp [retainedTables]) ht
  | catalogSnapshots =>
      cases snapshots with
      | none => rfl
      | some _ => exact absurd (by simp [retainedTables]) ht
  | _ => rfl

/-- The tables in memory after retention. -/
theorem Synced.retaining (h : Synced c v) (policy : RetentionPolicy) :
    Retaining (evictedKeys c.inner policy) (retainedTables policy)
      { c with inner := (c.inner.applyRetentionInMemory policy).1 } v := by
  have hinner := applyRetentionInMemory_fst (h.keyed .queryReceipts) policy
  refine ⟨fun t ht ↦ (hinner t).trans ?_, fun t ↦ ?_, fun t m hm ↦ (hinner t).trans ?_⟩
  · rw [h.isLazy t ht]
    rfl
  · exact (congrArg (Keyed t) (hinner t)).mpr ((h.keyed t).without _)
  · rw [h.inner t m hm]
    split_ifs with ht
    · rfl
    · exact SortedMap.filter_eq_self m fun k _ ↦ by rw [evictedKeys_eq_false c.inner ht]; rfl

/-- Retention in memory, and the rewrites that follow it. -/
theorem Synced.meets_retention (h : Synced c v) (policy : RetentionPolicy) {x : FileCache → FileM Nat}
    (hx : ∀ c', Retaining (evictedKeys c.inner policy) (retainedTables policy) c' v →
      Meets E op (x c) c' v (Keeps v)) :
    Meets E op (do
      let c ← FileM.get
      FileM.modify fun c' ↦ { c' with inner := (c.inner.applyRetentionInMemory policy).1 }
      if 0 < (c.inner.applyRetentionInMemory policy).2 then x c
      else pure (c.inner.applyRetentionInMemory policy).2) c v (Keeps v) := by
  rw [meets_get_bind, meets_modify_bind]
  split_ifs with hevicted
  · exact hx _ (h.retaining policy)
  · have hzero := applyRetentionInMemory_zero (Nat.eq_zero_of_not_pos hevicted)
    exact meets_pure _ (by rwa [hzero])

theorem meets_applyRetention (policy : RetentionPolicy) (h : Synced c v) :
    Meets E op (applyRetention E policy) c v (Keeps v) := by
  obtain ⟨receipts, snapshots⟩ := policy
  unfold applyRetention
  cases receipts with
  | none =>
      cases snapshots with
      | none =>
          simp only [Option.isSome_none, Bool.false_eq_true, if_false]
          exact h.meets_retention ⟨none, none⟩
            (x := fun c ↦ pure (c.inner.applyRetentionInMemory ⟨none, none⟩).2)
            fun c' hretaining ↦ meets_pure _ hretaining.synced
      | some max =>
          simp only [Option.isSome_none, Option.isSome_some, if_true, Bool.false_eq_true, if_false]
          refine (meets_load _ h).keeps fun _ c v h ↦ ?_
          refine h.meets_retention ⟨none, some max⟩ fun c' hretaining ↦ ?_
          have hretaining : Retaining _ [.catalogSnapshots] c' v := hretaining
          exact hretaining.keeps (by decide) fun c' v' hretaining ↦ meets_pure _ hretaining.synced
  | some max =>
      cases snapshots with
      | none =>
          simp only [Option.isSome_none, Option.isSome_some, if_true, Bool.false_eq_true, if_false]
          refine (meets_load _ h).keeps fun _ c v h ↦ ?_
          refine (meets_load _ h).keeps fun _ c v h ↦ ?_
          refine h.meets_retention ⟨some max, none⟩ fun c' hretaining ↦ ?_
          have hretaining : Retaining _ [.queryReceipts, .partitionMetadata] c' v := hretaining
          exact hretaining.keeps (by decide) fun c' v' hretaining ↦
            hretaining.keeps (by decide) fun c' v' hretaining ↦ meets_pure _ hretaining.synced
      | some max' =>
          simp only [Option.isSome_some, if_true]
          refine (meets_load _ h).keeps fun _ c v h ↦ ?_
          refine (meets_load _ h).keeps fun _ c v h ↦ ?_
          refine (meets_load _ h).keeps fun _ c v h ↦ ?_
          refine h.meets_retention ⟨some max, some max'⟩ fun c' hretaining ↦ ?_
          have hretaining : Retaining _ [.queryReceipts, .partitionMetadata, .catalogSnapshots] c' v :=
            hretaining
          exact hretaining.keeps (by decide) fun c' v' hretaining ↦
            hretaining.keeps (by decide) fun c' v' hretaining ↦
              hretaining.keeps (by decide) fun c' v' hretaining ↦ meets_pure _ hretaining.synced

end Operations

/-- Every operation keeps to the specification. -/
theorem meets_program (op : Operation) {c : FileCache} {v : View} (h : Synced c v) :
    Meets E op (op.program E) c v (Post op) := by
  unfold Operation.program
  cases op with
  | write t r => exact meets_write t r h
  | lookup l =>
      refine Meets.mono (P := Keeps v) ?_ fun _ _ _ h ↦ h.post (by rintro t r ⟨⟩)
      exact (meets_lookup l h).keeps fun _ _ _ h ↦ meets_pure _ h
  | compact =>
      refine Meets.mono (P := Keeps v) ?_ fun _ _ _ h ↦ h.post (by rintro t r ⟨⟩)
      exact (meets_compactUpsertTables h).keeps fun _ _ _ h ↦ meets_pure _ h
  | applyRetention policy =>
      refine Meets.mono (P := Keeps v) ?_ fun _ _ _ h ↦ h.post (by rintro t r ⟨⟩)
      exact (meets_applyRetention policy h).keeps fun _ _ _ h ↦ meets_pure _ h
  | skippedLines =>
      refine Meets.mono (P := Keeps v) ?_ fun _ _ _ h ↦ h.post (by rintro t r ⟨⟩)
      exact (meets_skippedLines h).keeps fun _ _ _ h ↦ meets_pure _ h

end FrankenSnowflake.Cache
