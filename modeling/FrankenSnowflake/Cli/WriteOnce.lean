import FrankenSnowflake.Cli.WriteSpec

/-!
# Confirmed writes execute once

Every step keeps what holds of the log, of the invocations and of what was submitted,
and the promises follow by induction on the run.  In the last section a second read
fails, and a used token submits again.
-/

namespace FrankenSnowflake.ConfirmedWrite

open Foundation SqlLexer Redact WriteIntent Confirmation
open Http (Text TransportRoute)

/-! ## One step -/

section Step

variable {ι : Type} {hmac : Hmac} {backend : StoreBackend} {command : ι → WriteCommand}
  {w w' : World ι} {l : Label ι}

theorem submitted_mem_eventsOf {i j : ι} {a : Action} {reply : a.Reply} {route : TransportRoute}
    (h : .submitted j route ∈ eventsOf i a reply) : j = i ∧ a = .submit route := by
  unfold eventsOf at h
  split at h <;> simp_all

theorem consumed_mem_eventsOf {i j : ι} {a : Action} {reply : a.Reply}
    (h : .consumed j ∈ eventsOf i a reply) :
    j = i ∧ ∃ id receipt, a = .appendAudit (.writeConfirmConsumed id receipt) ∧ HEq reply true := by
  unfold eventsOf at h
  split at h <;> simp_all

theorem executed_notMem_eventsOf {i j : ι} {a : Action} {reply : a.Reply} {route : TransportRoute} :
    .executed j route ∉ eventsOf i a reply := by
  unfold eventsOf
  split <;> simp

theorem began_notMem_eventsOf {i j : ι} {a : Action} {reply : a.Reply} :
    .began j ∉ eventsOf i a reply := by
  unfold eventsOf
  split <;> simp

/-- What holds in every run. -/
structure Inv (command : ι → WriteCommand) (w : World ι) : Prop where
  stable : ∀ record ∈ w.log.records, ∀ issued, record.event = .writeDryRun issued →
    redact issued.confirmId = issued.confirmId
  image : ∀ i rest image, w.status i = .running rest image →
    ∀ records ∈ image, records ⊆ w.log.records
  carries : ∀ i rest image, w.status i = .running rest image →
    ∃ v, (∀ id, v id → Issued w.log.records id) ∧ Carries (command i).confirm rest v
  submitted : w.CarriesId command
  fresh : ∀ i, w.status i = .ready → ∀ route, .submitted i route ∉ w.history
  executed : ∀ i route, .executed i route ∈ w.history → .submitted i route ∈ w.history ∧
    ∀ id ∈ requestIdOf route, id ∈ w.executed
  once : w.ExecutesOnce command

theorem inv_start : Inv command (World.start ι) where
  stable := by simp [World.start]
  image := by simp [World.start]
  carries := by simp [World.start]
  submitted := by simp [World.CarriesId, World.start]
  fresh := by simp [World.start]
  executed := by simp [World.start]
  once := by simp [World.ExecutesOnce, World.start]

theorem Issued.stable {records : List AuditEventRecord} {id : Text} (h : Issued records id)
    (hstable : ∀ record ∈ records, ∀ issued, record.event = .writeDryRun issued →
      redact issued.confirmId = issued.confirmId) : redact id = id := by
  obtain ⟨record, hmem, issued, hevent, rfl⟩ := h
  exact hstable record hmem issued hevent

theorem countP_append_singleton_le {α : Type} {p : α → Bool} {xs : List α} {x : α}
    (h : xs.countP p ≤ 1) (hx : p x = true → ∀ y ∈ xs, p y = false) :
    (xs ++ [x]).countP p ≤ 1 := by
  rw [List.countP_append, List.countP_singleton]
  split_ifs with hpx
  · have hnone : xs.countP p = 0 := by
      rw [List.countP_eq_zero]
      exact fun y hy ↦ Bool.eq_false_iff.mp (hx hpx y hy)
    omega
  · omega

variable [DecidableEq ι]

/-- The invocations after one of them changed. -/
theorem status_update {status : ι → Status} {i j : ι} {x y : Status}
    (h : Function.update status i x j = y) : (j = i ∧ x = y) ∨ (j ≠ i ∧ status j = y) := by
  by_cases heq : j = i
  · subst heq
    rw [Function.update_self] at h
    exact Or.inl ⟨rfl, h⟩
  · rw [Function.update_of_ne heq] at h
    exact Or.inr ⟨heq, h⟩

theorem Inv.step_act (h : Inv command w) {i : ι} {a : Action} {k : a.Reply → WriteM WriteOutcome}
    {reply : a.Reply} {image image' : Option (List AuditEventRecord)} {log' : AuditLog}
    (hstatus : w.status i = .running (.ask a k) image)
    (hreply : Replies backend w.log image a reply image' log') :
    Inv command { w with
      log := log'
      status := Function.update w.status i (.running (k reply) image')
      history := w.history ++ eventsOf i a reply } := by
  obtain ⟨v, hv, hspec⟩ := h.carries i _ _ hstatus
  have himage := h.image i _ _ hstatus
  have hspec : CarrySpec (command i).confirm a v fun reply v' ↦ Carries (command i).confirm (k reply) v' :=
    hspec
  constructor
  · intro record hrecord issued hevent
    rcases hreply.new record hrecord with hold | hnew
    · exact h.stable record hold issued hevent
    · have hmay := hspec.appends hnew
      rw [hevent] at hmay
      exact hmay
  · intro j rest image₁ hj
    rcases status_update hj with ⟨rfl, ⟨⟩⟩ | ⟨-, hj⟩
    · exact hreply.image_subset himage
    · exact fun records hrecords ↦ List.Subset.trans (h.image j _ _ hj records hrecords) hreply.subset
  · intro j rest image₁ hj
    rcases status_update hj with ⟨rfl, ⟨⟩⟩ | ⟨-, hj⟩
    · exact hspec.replies hv himage hreply
    · obtain ⟨v', hv', hcarries⟩ := h.carries j _ _ hj
      exact ⟨v', fun id hid ↦ (hv' id hid).mono hreply.subset, hcarries⟩
  · intro j route token hmem htoken
    rcases List.mem_append.mp hmem with hmem | hmem
    · obtain ⟨id, hnames, hissued, hroute⟩ := h.submitted j route token hmem htoken
      exact ⟨id, hnames, hissued.mono hreply.subset, hroute⟩
    · obtain ⟨rfl, rfl⟩ := submitted_mem_eventsOf hmem
      obtain ⟨id, hnames, hid, hroute⟩ := hspec.1 token htoken
      exact ⟨id, hnames, (hv id hid).mono hreply.subset, hroute⟩
  · intro j hj route hmem
    rcases status_update hj with ⟨-, ⟨⟩⟩ | ⟨hne, hj⟩
    rcases List.mem_append.mp hmem with hmem | hmem
    · exact h.fresh j hj route hmem
    · exact hne (submitted_mem_eventsOf hmem).1
  · intro j route hmem
    rcases List.mem_append.mp hmem with hmem | hmem
    · obtain ⟨hsubmitted, hid⟩ := h.executed j route hmem
      exact ⟨List.mem_append_left _ hsubmitted, hid⟩
    · exact absurd hmem executed_notMem_eventsOf
  · intro token
    have hnone : (eventsOf i a reply).countP (Event.IsExecution command token) = 0 := by
      rw [List.countP_eq_zero]
      intro e he
      cases e with
      | executed j route => exact absurd he executed_notMem_eventsOf
      | began j | submitted j route | consumed j => exact Bool.false_ne_true
    rw [List.countP_append, hnone]
    exact h.once token

theorem Inv.step (h : Inv command w) (hstep : Step hmac backend command w l w') :
    Inv command w' := by
  cases hstep with
  | @begin i hready =>
      refine ⟨h.stable, ?_, ?_, ?_, ?_, ?_, ?_⟩
      · intro j rest image hj
        rcases status_update hj with ⟨rfl, ⟨⟩⟩ | ⟨-, hj⟩
        · simp
        · exact h.image j _ _ hj
      · intro j rest image hj
        rcases status_update hj with ⟨rfl, ⟨⟩⟩ | ⟨-, hj⟩
        · exact ⟨fun _ ↦ False, fun _ hid ↦ hid.elim, carries_queryWrite (command j)⟩
        · exact h.carries j _ _ hj
      · intro j route token hmem
        exact h.submitted j route token (by simpa using hmem)
      · intro j hj route hmem
        rcases status_update hj with ⟨-, ⟨⟩⟩ | ⟨-, hj⟩
        exact h.fresh j hj route (by simpa using hmem)
      · intro j route hmem
        obtain ⟨hsubmitted, hid⟩ := h.executed j route (by simpa using hmem)
        exact ⟨List.mem_append_left _ hsubmitted, hid⟩
      · exact fun token ↦ countP_append_singleton_le (h.once token) fun hx ↦ absurd hx Bool.false_ne_true
  | act hstatus hreply => exact h.step_act hstatus hreply
  | @crash i rest image hstatus =>
      refine ⟨h.stable, ?_, ?_, h.submitted, ?_, h.executed, h.once⟩
      · intro j rest image hj
        rcases status_update hj with ⟨-, ⟨⟩⟩ | ⟨-, hj⟩
        exact h.image j _ _ hj
      · intro j rest image hj
        rcases status_update hj with ⟨-, ⟨⟩⟩ | ⟨-, hj⟩
        exact h.carries j _ _ hj
      · intro j hj route
        rcases status_update hj with ⟨-, ⟨⟩⟩ | ⟨-, hj⟩
        exact h.fresh j hj route
  | @execute i route hsubmitted hnew =>
      refine ⟨h.stable, h.image, h.carries, ?_, ?_, ?_, ?_⟩
      · intro j route' token hmem
        exact h.submitted j route' token (by simpa using hmem)
      · intro j hj route' hmem
        exact h.fresh j hj route' (by simpa using hmem)
      · intro j route' hmem
        rcases List.mem_append.mp hmem with hmem | hmem
        · obtain ⟨hsubmitted', hid⟩ := h.executed j route' hmem
          exact ⟨List.mem_append_left _ hsubmitted', fun id hid' ↦ List.mem_append_right _ (hid id hid')⟩
        · cases List.mem_singleton.mp hmem
          exact ⟨List.mem_append_left _ hsubmitted,
            fun id hid ↦ List.mem_append_left _ (Option.mem_toList.mpr hid)⟩
      · intro token
        refine countP_append_singleton_le (h.once token) fun hx e he ↦ ?_
        -- an execution under the same token has the same request id
        cases e with
        | executed j route' =>
            rw [Bool.eq_false_iff]
            intro hj
            have htoken := of_decide_eq_true hx
            have htoken' := of_decide_eq_true hj
            obtain ⟨id, hnames, -, rfl⟩ := h.submitted i route token hsubmitted htoken
            obtain ⟨hsubmitted', hexecuted⟩ := h.executed j route' he
            obtain ⟨id', hnames', -, rfl⟩ := h.submitted j route' token hsubmitted' htoken'
            obtain rfl := hnames.unique hnames'
            exact hnew id rfl (hexecuted id rfl)
        | began j | submitted j route' | consumed j => rfl

/-! ## Safe steps -/

/-- The invocation never submitted and is barred from it. -/
def World.Bars (w : World ι) (i : ι) : Prop :=
  (∀ route, .submitted i route ∉ w.history) ∧ w.status i ≠ .ready ∧
    ∀ rest image, w.status i = .running rest image → ∃ id, Consumed w.log.records id ∧
      (∀ records ∈ image, Consumed records id) ∧ IsBarred id rest image.isSome

/-- What holds in every safe run. -/
structure SafeInv (command : ι → WriteCommand) (w : World ι) : Prop where
  consumed : ∀ j, .consumed j ∈ w.history → ∃ token id, (command j).confirm = some token ∧
    Names token id ∧ Consumed w.log.records id
  bars : w.history.Pairwise fun e e' ↦ ∀ j i, e = .consumed j → e' = .began i →
    (command i).confirm = (command j).confirm → w.Bars i

omit [DecidableEq ι] in
theorem safeInv_start : SafeInv command (World.start ι) where
  consumed := by simp [World.start]
  bars := .nil

theorem World.Bars.step {i : ι} (h : w.Bars i) (hstep : Step hmac backend command w l w')
    (hsafe : Safe w l) : w'.Bars i := by
  obtain ⟨hsubmitted, hready, hbarred⟩ := h
  cases hstep with
  | @begin j hj =>
      have hne : i ≠ j := by
        rintro rfl
        exact hready hj
      refine ⟨fun route hmem ↦ hsubmitted route (by simpa using hmem), ?_, ?_⟩
      · show Function.update _ _ _ _ ≠ _
        rwa [Function.update_of_ne hne]
      · intro rest image hi
        rcases status_update hi with ⟨heq, -⟩ | ⟨-, hi⟩
        · exact absurd heq hne
        · exact hbarred rest image hi
  | @act j a k reply image image' log' hstatus hreply =>
      by_cases heq : i = j
      · subst heq
        obtain ⟨id, hconsumed, himage, hspec⟩ := hbarred _ _ hstatus
        obtain ⟨himage', hrest, hnosubmit⟩ := BarredSpec.replies (Q := fun reply v ↦ IsBarred id (k reply) v)
          hspec hconsumed himage (by
            rintro error rfl ⟨⟩
            exact hsafe _ _ hstatus) hreply
        refine ⟨?_, ?_, ?_⟩
        · intro route hmem
          rcases List.mem_append.mp hmem with hmem | hmem
          · exact hsubmitted route hmem
          · exact hnosubmit route (submitted_mem_eventsOf hmem).2
        · show Function.update _ _ _ _ ≠ _
          rw [Function.update_self]
          exact nofun
        · intro rest image₁ hi
          rcases status_update hi with ⟨-, ⟨⟩⟩ | ⟨hne, -⟩
          · exact ⟨id, hconsumed.mono hreply.subset, himage', hrest⟩
          · exact absurd rfl hne
      · refine ⟨?_, ?_, ?_⟩
        · intro route hmem
          rcases List.mem_append.mp hmem with hmem | hmem
          · exact hsubmitted route hmem
          · exact heq (submitted_mem_eventsOf hmem).1
        · show Function.update _ _ _ _ ≠ _
          rwa [Function.update_of_ne heq]
        · intro rest image₁ hi
          rcases status_update hi with ⟨heq', -⟩ | ⟨-, hi⟩
          · exact absurd heq' heq
          · obtain ⟨id, hconsumed, himage, hrest⟩ := hbarred rest image₁ hi
            exact ⟨id, hconsumed.mono hreply.subset, himage, hrest⟩
  | @crash j rest image hstatus =>
      refine ⟨hsubmitted, ?_, ?_⟩
      · intro hi
        rcases status_update hi with ⟨-, ⟨⟩⟩ | ⟨-, hi⟩
        exact hready hi
      · intro rest image hi
        rcases status_update hi with ⟨-, ⟨⟩⟩ | ⟨-, hi⟩
        exact hbarred rest image hi
  | execute hroute hnew =>
      exact ⟨fun route hmem ↦ hsubmitted route (by simpa using hmem), hready, hbarred⟩

theorem Step.subset (hstep : Step hmac backend command w l w') : w.log.records ⊆ w'.log.records := by
  cases hstep with
  | begin h => exact List.Subset.refl _
  | act h hreply => exact hreply.subset
  | crash h => exact List.Subset.refl _
  | execute h hnew => exact List.Subset.refl _

omit [DecidableEq ι] in
/-- New events bar what begins behind a consumption. -/
theorem SafeInv.bars_append (hs : SafeInv command w) {es : List (Event ι)}
    (hmono : ∀ i, w.Bars i → w'.Bars i)
    (hnew : ∀ i j, .began i ∈ es → .consumed j ∈ w.history ++ es →
      (command i).confirm = (command j).confirm → w'.Bars i) :
    (w.history ++ es).Pairwise fun e e' ↦ ∀ j i, e = .consumed j → e' = .began i →
      (command i).confirm = (command j).confirm → w'.Bars i := by
  rw [List.pairwise_append]
  refine ⟨?_, ?_, ?_⟩
  · exact hs.bars.imp fun h j i hj hi heq ↦ hmono i (h j i hj hi heq)
  · apply List.pairwise_of_forall_mem_list
    rintro _ hj _ hi j i rfl rfl heq
    exact hnew i j hi (List.mem_append_right _ hj) heq
  · rintro _ hj _ hi j i rfl rfl heq
    exact hnew i j hi (List.mem_append_left _ hj) heq

omit [DecidableEq ι] in
/-- A consumption that is appended to a sound log is on the log. -/
theorem Inv.consumed_act (h : Inv command w) {i : ι} {id : Text} {receipt : Option Text}
    {k : Bool → WriteM WriteOutcome} {image image' : Option (List AuditEventRecord)} {log' : AuditLog}
    (hstatus : w.status i = .running (.ask (.appendAudit (.writeConfirmConsumed id receipt)) k) image)
    (hreply : Replies backend w.log image (.appendAudit (.writeConfirmConsumed id receipt)) true
      image' log') (htorn : w.log.torn = false) :
    ∃ token id, (command i).confirm = some token ∧ Names token id ∧ Consumed log'.records id := by
  obtain ⟨v, hv, hspec⟩ := h.carries i _ _ hstatus
  obtain ⟨token, id', htoken, hnames, hid, rfl⟩ := hspec.1
  rw [(hv id' hid).stable h.stable] at hreply
  refine ⟨token, id', htoken, hnames, ?_⟩
  cases hreply with
  | append happend =>
      obtain ⟨record, hmem, hevent⟩ := happend.grows.stored rfl htorn
      exact ⟨record, hmem, receipt, hevent⟩
  | other hlocal reply => exact hlocal.elim

theorem SafeInv.step (hs : SafeInv command w) (h : Inv command w)
    (hstep : Step hmac backend command w l w') (hsafe : Safe w l) : SafeInv command w' := by
  have hmono : ∀ i, w.Bars i → w'.Bars i := fun i hi ↦ hi.step hstep hsafe
  have hold : ∀ j, .consumed j ∈ w.history → ∃ token id, (command j).confirm = some token ∧
      Names token id ∧ Consumed w'.log.records id := by
    intro j hj
    obtain ⟨token, id, htoken, hnames, hconsumed⟩ := hs.consumed j hj
    exact ⟨token, id, htoken, hnames, hconsumed.mono hstep.subset⟩
  have hstep' := hstep
  cases hstep with
  | @begin i hready =>
      refine ⟨fun j hj ↦ hold j (by simpa using hj), hs.bars_append hmono fun i' j hi hj heq ↦ ?_⟩
      cases List.mem_singleton.mp hi
      obtain ⟨token, id, htoken, hnames, hconsumed⟩ := hold j (by simpa using hj)
      refine ⟨fun route hmem ↦ h.fresh i hready route (by simpa using hmem), ?_, ?_⟩
      · show Function.update _ _ _ _ ≠ _
        rw [Function.update_self]
        exact nofun
      · intro rest image hi
        rcases status_update hi with ⟨-, ⟨⟩⟩ | ⟨hne, -⟩
        · exact ⟨id, hconsumed, by simp, isBarred_queryWrite (heq.trans htoken) hnames⟩
        · exact absurd rfl hne
  | @act i a k reply image image' log' hstatus hreply =>
      constructor
      · intro j hj
        rcases List.mem_append.mp hj with hj | hj
        · exact hold j hj
        · obtain ⟨rfl, id, receipt, rfl, hok⟩ := consumed_mem_eventsOf hj
          cases hok
          exact h.consumed_act hstatus hreply hsafe
      · exact hs.bars_append hmono fun i' j hi _ _ ↦ absurd hi began_notMem_eventsOf
  | crash hstatus => exact ⟨hold, hs.bars.imp fun h j i hj hi heq ↦ hmono i (h j i hj hi heq)⟩
  | execute hsubmitted hnew =>
      refine ⟨fun j hj ↦ hold j (by simpa using hj), hs.bars_append hmono fun i' j hi _ _ ↦ ?_⟩
      cases List.mem_singleton.mp hi

end Step

/-! ## Runs -/

section Runs

variable {ι : Type} [DecidableEq ι] {hmac : Hmac} {backend : StoreBackend}
  {command : ι → WriteCommand} {w : World ι} {P : World ι → Label ι → Prop}

theorem inv_of_reaches (h : Reaches hmac backend command P w) : Inv command w := by
  induction h with
  | start => exact inv_start
  | step _ hstep _ ih => exact ih.step hstep

theorem safeInv_of_reaches (hP : ∀ w l, P w l → Safe w l) (h : Reaches hmac backend command P w) :
    SafeInv command w := by
  induction h with
  | start => exact safeInv_start
  | step h hstep hl ih => exact ih.step (inv_of_reaches h) hstep (hP _ _ hl)

/-- Confirmed writes carry their confirmation's id and execute at most once in every run; where
all steps are safe, a recorded consumption also bars the token from being used again. -/
theorem confirmedWrite_of_reaches (h : Reaches hmac backend command P w) :
    w.CarriesId command ∧ w.ExecutesOnce command ∧
      ((∀ w l, P w l → Safe w l) → w.SingleUse command) := by
  refine ⟨(inv_of_reaches h).submitted, (inv_of_reaches h).once, fun hP ↦ ?_⟩
  exact (safeInv_of_reaches hP h).bars.imp fun hbars j i hj hi heq ↦ (hbars j i hj hi heq).1

end Runs

/-! ## A second read that fails -/

section Replay

variable {backend : StoreBackend}

/-- Steps of one invocation, with no other one in between. -/
inductive Acts (backend : StoreBackend) : AuditLog → Option (List AuditEventRecord) →
    WriteM WriteOutcome → List ((a : Action) × a.Reply) → AuditLog →
    Option (List AuditEventRecord) → WriteM WriteOutcome → Prop
  | nil (log : AuditLog) (image : Option (List AuditEventRecord)) (rest : WriteM WriteOutcome) :
      Acts backend log image rest [] log image rest
  | cons {log log' log'' : AuditLog} {image image' image'' : Option (List AuditEventRecord)}
      {a : Action} {k : a.Reply → WriteM WriteOutcome} {reply : a.Reply}
      {es : List ((a : Action) × a.Reply)} {rest : WriteM WriteOutcome}
      (hreply : Replies backend log image a reply image' log')
      (h : Acts backend log' image' (k reply) es log'' image'' rest) :
      Acts backend log image (.ask a k) (⟨a, reply⟩ :: es) log'' image'' rest

variable {ι : Type} [DecidableEq ι] {hmac : Hmac} {command : ι → WriteCommand}

theorem Reaches.acts {P : World ι → Label ι → Prop} {i : ι} {log log' : AuditLog} {image image' : Option (List AuditEventRecord)}
    {program rest : WriteM WriteOutcome} {es : List ((a : Action) × a.Reply)}
    (hacts : Acts backend log image program es log' image' rest) {w : World ι}
    (hw : Reaches hmac backend command P w) (hP : ∀ w, ∀ e ∈ es, P w (.act i e.1 e.2))
    (hlog : w.log = log) (hstatus : w.status i = .running program image) :
    Reaches hmac backend command P { w with
      log := log'
      status := Function.update w.status i (.running rest image')
      history := w.history ++ es.flatMap fun e ↦ eventsOf i e.1 e.2 } := by
  induction hacts generalizing w with
  | nil log image rest =>
      subst hlog
      rw [← hstatus, Function.update_eq_self, List.flatMap_nil, List.append_nil]
      exact hw
  | cons hreply h ih =>
      subst hlog
      have hnext := ih (hw.step (.act hstatus hreply) (hP w _ List.mem_cons_self))
        (fun w e he ↦ hP w e (List.mem_cons_of_mem _ he)) rfl (Function.update_self ..)
      simpa [Function.update_idem] using hnext

/-- An invocation that runs with no other one in between. -/
theorem Reaches.invocation {P : World ι → Label ι → Prop} {w : World ι}
    (hw : Reaches hmac backend command P w) {i : ι} (hready : w.status i = .ready)
    {es : List ((a : Action) × a.Reply)} {log' : AuditLog}
    {image' : Option (List AuditEventRecord)} {rest : WriteM WriteOutcome}
    (hacts : Acts backend w.log none (queryWrite hmac (command i)) es log' image' rest)
    (hP : ∀ w, ∀ e ∈ es, P w (.act i e.1 e.2)) (hbegin : P w (.begin i)) :
    ∃ w', Reaches hmac backend command P w' ∧ w'.log = log' ∧
      (∀ j, j ≠ i → w'.status j = w.status j) ∧
      w'.history = w.history ++ .began i :: es.flatMap fun e ↦ eventsOf i e.1 e.2 := by
  have hbegun := Reaches.acts (i := i) hacts (.step hw (.begin hready) hbegin) hP rfl
    (Function.update_self ..)
  refine ⟨_, hbegun, rfl, fun j hj ↦ ?_, by simp⟩
  show Function.update (Function.update _ _ _) _ _ _ = _
  rw [Function.update_of_ne hj, Function.update_of_ne hj]

theorem Acts.append {log log' log'' : AuditLog} {image image' image'' : Option (List AuditEventRecord)}
    {program middle rest : WriteM WriteOutcome} {es es' : List ((a : Action) × a.Reply)}
    (h : Acts backend log image program es log' image' middle)
    (h' : Acts backend log' image' middle es' log'' image'' rest) :
    Acts backend log image program (es ++ es') log'' image'' rest := by
  induction h with
  | nil => exact h'
  | cons hreply _ ih => exact .cons hreply (ih h')

end Replay

def openSettings : WriteSettings := ⟨true, false, false, false, false, .ok none, none⟩

def deleteAll : Text := "delete from t".toList

def theId : Text := randomId (List.replicate 16 0)

def theToken : Text := (ConfirmationToken.forRequest (String.ofList theId) .delete).value.toList

def theDigest : Text := hexLower ((['p'] ++ '\x1f' :: compactSql deleteAll).flatMap fun c ↦
    [UInt8.ofNat (c.toNat / 65536), UInt8.ofNat (c.toNat / 256), UInt8.ofNat c.toNat])

def theDryRun : IssuedConfirmation := ⟨theId, ['p'], theDigest, "delete".toList, 0⟩

/-- A dry run, and two confirmed writes under its token. -/
def replayed (i : Nat) : WriteCommand :=
  ⟨some ['p'], some deleteAll, i = 0, if i = 0 then none else some theToken, openSettings⟩

def issuedRecord : AuditEventRecord := ⟨"issued", 0, .writeDryRun theDryRun⟩

def consumedRecord : AuditEventRecord := ⟨"consumed", 0, .writeConfirmConsumed theId none⟩

theorem queryWrite_replayed (i : Nat) : queryWrite spellingHmac (replayed i) =
    writeStatement spellingHmac openSettings ['p'] deleteAll .delete
      (if i = 0 then .planDryRun else .prepareExecution) (replayed i).confirm := by
  have hambiguous : ambiguousSqlReason deleteAll = none := by decide +kernel
  have hmultiple : hasMultipleStatements deleteAll = false := by decide +kernel
  have hkind : classifyWriteStatement deleteAll = .delete := by decide +kernel
  by_cases hi : i = 0
  · simp [queryWrite, replayed, hi, hambiguous, hmultiple, hkind, writeMode]
  · simp [queryWrite, replayed, hi, hambiguous, hmultiple, hkind, writeMode]

theorem keyedSqlDigest_deleteAll : keyedSqlDigest spellingHmac (Store.ofKey (.ok [])) ['p']
    (compactSql deleteAll) = .ok theDigest := rfl

/-- The plan of the dry run. -/
def thePlan : WriteIntentPlan :=
  dryRunPlan (writeIntent .planDryRun deleteAll .delete theId none true) .dml
    ⟨cliAllowlistId .delete, .delete⟩ (String.ofList theId)

theorem acts_dryRun : Acts .sqlite ⟨[], false⟩ none (queryWrite spellingHmac (replayed 0))
    [⟨.openStore, true⟩, ⟨.idSource, .random (List.replicate 16 0)⟩, ⟨.confirmKey, .ok []⟩,
      ⟨.clock, (0 : Nat)⟩, ⟨.appendAudit (.writeDryRun theDryRun), true⟩]
    ⟨[issuedRecord], false⟩ none (.done (.planned thePlan (.ok ()))) := by
  have hplan : evaluateWriteIntent (writeIntent .planDryRun deleteAll .delete theId none true)
      (writePolicyFromFlags true false false .delete) = .dryRunPlanned thePlan := by decide +kernel
  have hissued : theDryRun.redacted = theDryRun := by decide +kernel
  have hstored : Appends .sqlite ⟨[], false⟩ (.writeDryRun theDryRun) true ⟨[issuedRecord], false⟩ :=
    .stored "issued" 0 rfl (by simp)
  rw [queryWrite_replayed]
  refine .cons (.other (a := .openStore) trivial true) ?_
  refine .cons (.other (a := .idSource) trivial (.random (List.replicate 16 0))) ?_
  show Acts _ _ _ (afterLadder spellingHmac true ['p'] deleteAll .delete theId false
    (evaluateWriteIntent (writeIntent .planDryRun deleteAll .delete theId none true)
      (writePolicyFromFlags true false false .delete))) _ _ _ _
  rw [hplan]
  refine .cons (.other (a := .confirmKey) trivial (.ok [])) ?_
  refine .cons (.other (a := .clock) trivial (0 : Nat)) ?_
  show Acts _ _ _ (.ask (.appendAudit (.writeDryRun theDryRun.redacted)) fun recorded ↦
    .done (.planned thePlan (if recorded then .ok () else .error "the audit log could not be appended")))
    _ _ _ _
  rw [hissued]
  exact .cons (.append hstored) (.nil _ _ _)

/-- A confirmed write up to its submit, where the second read does not show a consumption. -/
theorem acts_confirmed {i : Nat} (hi : i ≠ 0) (log : AuditLog)
    {image : Option (List AuditEventRecord)} {reply : Except String (List AuditEventRecord)}
    (hfind : (Store.ofLog (.ok log.records)).findDryRun theId = some theDryRun)
    (hreads : Reads .sqlite log (some log.records) reply image)
    (hunused : (Store.ofLog reply).confirmationConsumedBy theId = none) :
    Acts .sqlite log none (queryWrite spellingHmac (replayed i))
      [⟨.openStore, true⟩, ⟨.auditEvents, .ok log.records⟩, ⟨.confirmKey, .ok []⟩,
        ⟨.clock, (0 : Nat)⟩, ⟨.auditEvents, reply⟩, ⟨.resolve, true⟩,
        ⟨.appendAudit (.other "write_submitted"), false⟩, ⟨.prepare, true⟩]
      log image (executeWrite (some theId) theId) := by
  have hprefix : stripPrefix? (confirmPrefix .delete) theToken = some theId :=
    stripPrefix?_forRequest_self theId .delete
  have halive : ¬ toMillis (openSettings.tokenTtlSeconds.getD defaultWriteTokenTtlSeconds) ≤
      0 - theDryRun.issuedAtMs := by decide
  have hdecision : evaluateWriteIntent
      (writeIntent .prepareExecution deleteAll .delete theId (some theToken) true)
      { writePolicyFromFlags true false false .delete with requireExactConfirmation := true } =
      .executionAuthorized ⟨thePlan.authorize⟩ := by decide +kernel
  have hcovers : WriteAuthorization.covers ⟨thePlan.authorize⟩ deleteAll = true := by decide +kernel
  rw [queryWrite_replayed, if_neg hi]
  refine .cons (.other (a := .openStore) trivial true) ?_
  simp only [replayed, if_neg hi, verify, hprefix]
  refine .cons (.read .first) ?_
  simp only [hfind]
  refine .cons (.other (a := .confirmKey) trivial (.ok [])) ?_
  simp only [keyedSqlDigest_deleteAll]
  have hsame : ¬ (theDryRun.profile ≠ ['p'] ∨ theDryRun.sqlDigest ≠ theDigest ∨
      theDryRun.statementKind ≠ WriteStatementKind.delete.asToken.toList) := by decide +kernel
  simp only [if_neg hsame]
  refine .cons (.other (a := .clock) trivial (0 : Nat)) ?_
  dsimp only
  rw [if_neg halive]
  refine .cons (.read hreads) ?_
  dsimp only
  rw [hunused]
  show Acts _ _ _ (afterLadder spellingHmac true ['p'] deleteAll .delete theId true
    (evaluateWriteIntent (writeIntent .prepareExecution deleteAll .delete theId (some theToken) true)
      { writePolicyFromFlags true false false .delete with requireExactConfirmation := true })) _ _ _ _
  rw [hdecision]
  show Acts _ _ _ (runWrite ⟨thePlan.authorize⟩ deleteAll (some theId)) _ _ _ _
  rw [runWrite, if_neg (not_not_intro hcovers)]
  refine .cons (.other (a := .resolve) trivial true) ?_
  refine .cons (.append .failed) ?_
  exact .cons (.other (a := .prepare) trivial true) (.nil _ _ _)

theorem findDryRun_issued : (Store.ofLog (.ok [issuedRecord])).findDryRun theId = some theDryRun := by
  simp [Store.findDryRun, Store.dryRuns, Store.auditEvents, Store.ofLog, issuedRecord, theDryRun]

theorem unused_issued : (Store.ofLog (.ok [issuedRecord])).confirmationConsumedBy theId = none := by
  simp [Store.confirmationConsumedBy, Store.auditEvents, Store.ofLog, issuedRecord]

/-- A confirmed write whose consumption is recorded. -/
theorem acts_executed : Acts .sqlite ⟨[issuedRecord], false⟩ (some [issuedRecord])
    (executeWrite (some theId) theId)
    [⟨.submit (writeRoute theId), ()⟩, ⟨.answer, true⟩, ⟨.recordReceipt "write_executed", none⟩,
      ⟨.appendAudit (.writeConfirmConsumed theId none), true⟩]
    ⟨[consumedRecord, issuedRecord], false⟩ (some [issuedRecord]) (.done (.succeeded none true)) := by
  have hid : redact theId = theId := redact_id (.random (List.replicate 16 0))
  have hstored : Appends .sqlite ⟨[issuedRecord], false⟩ (.writeConfirmConsumed theId none) true
      ⟨[consumedRecord, issuedRecord], false⟩ := .stored "consumed" 0 rfl (by simp [issuedRecord])
  refine .cons (.other (a := .submit (writeRoute theId)) trivial ()) ?_
  refine .cons (.other (a := .answer) trivial true) ?_
  refine .cons (.receipt .failed none) ?_
  show Acts _ _ _ (.ask (.appendAudit (.writeConfirmConsumed (redact theId) none)) fun consumed ↦
    .done (.succeeded none consumed)) _ _ _ _
  rw [hid]
  exact .cons (.append hstored) (.nil _ _ _)

/-- The second read of the third invocation fails, and it submits once more. -/
theorem not_confirmedWrite_of_reaches : ¬ ∀ w : World Nat,
    Reaches spellingHmac .sqlite replayed (fun _ _ ↦ True) w →
      w.CarriesId replayed ∧ w.ExecutesOnce replayed ∧ w.SingleUse replayed := by
  intro hclaim
  have hfind' : (Store.ofLog (.ok [consumedRecord, issuedRecord])).findDryRun theId =
      some theDryRun := by decide +kernel
  have hstart : Reaches spellingHmac .sqlite replayed (fun _ _ ↦ True) (World.start Nat) := .start
  obtain ⟨w₀, hw₀, hlog₀, hstatus₀, hhistory₀⟩ := hstart.invocation (i := 0) rfl acts_dryRun
    (fun _ _ _ ↦ trivial) trivial
  have hconfirmed := (acts_confirmed Nat.one_ne_zero ⟨[issuedRecord], false⟩ findDryRun_issued (.again _ rfl) unused_issued).append acts_executed
  rw [← hlog₀] at hconfirmed
  obtain ⟨w₁, hw₁, hlog₁, hstatus₁, hhistory₁⟩ := hw₀.invocation (i := 1)
    (hstatus₀ 1 Nat.one_ne_zero) hconfirmed (fun _ _ _ ↦ trivial) trivial
  have hreplayed := (acts_confirmed (Nat.succ_ne_zero 1) ⟨[consumedRecord, issuedRecord], false⟩ hfind'
    (.againFails _ "database is locked" rfl) rfl).append
      (.cons (.other (a := .submit (writeRoute theId)) trivial ()) (.nil _ _ _))
  rw [← hlog₁] at hreplayed
  obtain ⟨w₂, hw₂, -, -, hhistory₂⟩ := hw₁.invocation (i := 2)
    ((hstatus₁ 2 (by decide)).trans (hstatus₀ 2 (by decide))) hreplayed
    (fun _ _ _ ↦ trivial) trivial
  have hhistory : w₂.history = [.began 0, .began 1, .submitted 1 (writeRoute theId), .consumed 1,
      .began 2, .submitted 2 (writeRoute theId)] := by
    rw [hhistory₂, hhistory₁, hhistory₀]
    rfl
  have hsingle := (hclaim w₂ hw₂).2.2
  rw [World.SingleUse, hhistory] at hsingle
  simp only [List.pairwise_cons] at hsingle
  refine hsingle.2.2.2.1 (.began 2) List.mem_cons_self 1 2 rfl rfl rfl (writeRoute theId) ?_
  simp

/-- A confirmed write that is submitted. -/
theorem confirmedWrite_of_reaches_submitted : ∃ w : World Nat,
    .submitted 1 (writeRoute theId) ∈ w.history ∧ w.CarriesId replayed ∧ w.ExecutesOnce replayed ∧
      w.SingleUse replayed := by
  have hstart : Reaches spellingHmac .sqlite replayed Safe (World.start Nat) := .start
  obtain ⟨w₀, hw₀, hlog₀, hstatus₀, -⟩ := hstart.invocation (i := 0) rfl acts_dryRun
    (by simp [Safe]) trivial
  have hconfirmed := (acts_confirmed Nat.one_ne_zero ⟨[issuedRecord], false⟩ findDryRun_issued (.again _ rfl)
    unused_issued).append (.cons (.other (a := .submit (writeRoute theId)) trivial ()) (.nil _ _ _))
  rw [← hlog₀] at hconfirmed
  obtain ⟨w₁, hw₁, -, -, hhistory₁⟩ := hw₀.invocation (i := 1)
    (hstatus₀ 1 Nat.one_ne_zero) hconfirmed (by simp [Safe]) trivial
  have hmem : .submitted 1 (writeRoute theId) ∈ w₁.history := by
    rw [hhistory₁]
    exact List.mem_append_right _ (by simp [eventsOf])
  obtain ⟨hcarries, honce, hsingle⟩ := confirmedWrite_of_reaches hw₁
  exact ⟨w₁, hmem, hcarries, honce, hsingle fun _ _ h ↦ h⟩

end FrankenSnowflake.ConfirmedWrite
