import FrankenSnowflake.Cli.WriteRuns

/-!
# What an invocation may do

An invocation is specified by what it knows of the log: which confirmations were
issued, or that its own is used.  `query write` keeps to both specifications, and
so do the replies of the log.
-/

namespace FrankenSnowflake.ConfirmedWrite

open Foundation SqlLexer Redact WriteIntent Confirmation
open Http (Text TransportRoute)

/-! ## Tokens and events -/

theorem Names.unique {token id id' : Text} (h : Names token id) (h' : Names token id') : id = id' := by
  obtain ⟨kind, rfl⟩ := h
  obtain ⟨kind', h'⟩ := h'
  have htoken : (ConfirmationToken.forRequest (String.ofList id) kind).value.toList =
      confirmPrefix kind ++ id := by simp [confirmPrefix, ConfirmationToken.forRequest]
  have hstarts : (confirmPrefix kind').isPrefixOf (confirmPrefix kind ++ id) :=
    List.isPrefixOf_iff_prefix.mpr ⟨id', h'.symm⟩
  have hstrip : stripPrefix? (confirmPrefix kind')
      (ConfirmationToken.forRequest (String.ofList id) kind).value.toList = some id' := by
    rw [htoken, stripPrefix?, if_pos hstarts, h', List.drop_left]
  exact (stripPrefix?_forRequest hstrip).symm

theorem names_of_stripPrefix {kind : WriteStatementKind} {token id : Text}
    (h : stripPrefix? (confirmPrefix kind) token = some id) : Names token id := by
  unfold stripPrefix? at h
  split_ifs at h with hstarts
  obtain ⟨rest, rfl⟩ := List.isPrefixOf_iff_prefix.mp hstarts
  rw [List.drop_left] at h
  exact ⟨kind, by rw [Option.some.inj h]⟩

theorem issued_of_findDryRun {log : Except String (List AuditEventRecord)} {id : Text}
    {issued : IssuedConfirmation} (h : (Store.ofLog log).findDryRun id = some issued) :
    ∃ records, log = .ok records ∧ Issued records id := by
  obtain ⟨hmem, hid⟩ := findDryRun_eq_some h
  obtain ⟨records, hlog, record, hrecord, hevent⟩ := mem_dryRuns.mp hmem
  exact ⟨records, hlog, record, hrecord, issued, hevent, hid⟩

theorem confirmationConsumedBy_of_consumed {records : List AuditEventRecord} {id : Text}
    (h : Consumed records id) : (Store.ofLog (.ok records)).confirmationConsumedBy id ≠ none := by
  obtain ⟨record, hmem, receipt, hevent⟩ := h
  intro hnone
  rw [Store.confirmationConsumedBy, List.findSome?_eq_none_iff] at hnone
  have hmem' : record.event ∈ (Store.ofLog (.ok records)).auditEvents :=
    List.mem_map.mpr ⟨record, (List.mem_insertionSort _).mpr hmem, rfl⟩
  have hevent' := hnone _ hmem'
  rw [hevent] at hevent'
  simp at hevent'

theorem Issued.mono {records records' : List AuditEventRecord} {id : Text} (h : Issued records id)
    (hsub : records ⊆ records') : Issued records' id := by
  obtain ⟨record, hmem, hevent⟩ := h
  exact ⟨record, hsub hmem, hevent⟩

theorem Consumed.mono {records records' : List AuditEventRecord} {id : Text}
    (h : Consumed records id) (hsub : records ⊆ records') : Consumed records' id := by
  obtain ⟨record, hmem, hevent⟩ := h
  exact ⟨record, hsub hmem, hevent⟩

/-! ## Ids -/

theorem toDigits_alphabet {n : Nat} {c : Char} (h : c ∈ Nat.toDigits 16 n) : c ∈ hexAlphabet := by
  induction n using Nat.strongRecOn with
  | ind n ih =>
      rw [Nat.toDigits_eq_if (by decide)] at h
      split_ifs at h with hn
      · rw [List.mem_singleton.mp h]
        exact digitChar_mem_hexAlphabet n hn
      · rcases List.mem_append.mp h with h | h
        · exact ih (n / 16) (by omega) h
        · rw [List.mem_singleton.mp h]
          exact digitChar_mem_hexAlphabet (n % 16) (Nat.mod_lt n (by decide))

theorem hexPadded_alphabet {width n : Nat} {c : Char} (h : c ∈ hexPadded width n) :
    c ∈ hexAlphabet := by
  rcases List.mem_append.mp h with h | h
  · rw [List.eq_of_mem_replicate h]
    decide
  · exact toDigits_alphabet h

theorem invocationId_alphabet {mixed : Nat} {c : Char} (h : c ∈ invocationId mixed) :
    c ∈ hexAlphabet := by
  have hdash : c = '-' → c ∈ hexAlphabet := by
    rintro rfl
    decide
  have hfour : c = '4' → c ∈ hexAlphabet := by
    rintro rfl
    decide
  have height : c = '8' → c ∈ hexAlphabet := by
    rintro rfl
    decide
  have hhex : ∀ {width n}, c ∈ hexPadded width n → c ∈ hexAlphabet := hexPadded_alphabet
  simp only [invocationId, List.mem_append, List.mem_cons] at h
  tauto

/-- The audit sink writes an id as it is. -/
theorem redact_id (source : IdSource) : redact source.id = source.id := by
  apply redact_of_hexAlphabet
  intro c hc
  cases source with
  | random bytes => exact randomId_alphabet hc
  | invocation mixed => exact invocationId_alphabet hc

/-! ## What an invocation may do -/

/-- Events that may be appended where the ids `v` are known to be issued: recorded ids are
written as they are. -/
def MayAppend (confirm : Option Text) (v : Text → Prop) : AuditEvent → Prop
  | .writeConfirmConsumed c _ => ∃ token id, confirm = some token ∧ Names token id ∧ v id ∧ c = redact id
  | .writeDryRun issued => redact issued.confirmId = issued.confirmId
  | .other _ => True

/-- Under a token, submits and consumptions are those of a confirmation that is known to be
issued. -/
def CarrySpec (confirm : Option Text) :
    (a : Action) → (Text → Prop) → (a.Reply → (Text → Prop) → Prop) → Prop
  | .auditEvents, v, P => ∀ reply, P reply fun id ↦ v id ∨ ∃ records, reply = .ok records ∧
      Issued records id
  | .submit route, v, P => (∀ token, confirm = some token → ∃ id, Names token id ∧ v id ∧
      route = .submitWithQuery [("requestId".toList, id), ("retry".toList, "true".toList)]) ∧ P () v
  | .appendAudit event, v, P => MayAppend confirm v event ∧ ∀ ok, P ok v
  | .openStore, v, P | .confirmKey, v, P | .clock, v, P | .idSource, v, P
  | .requestIdSource, v, P | .resolve, v, P | .prepare, v, P | .recordReceipt _, v, P
  | .answer, v, P => ∀ reply, P reply v

/-- An invocation under a used id does not submit, if the log is read with the consumption;
after the first time, reading it does not fail. -/
def BarredSpec (id : Text) : (a : Action) → Bool → (a.Reply → Bool → Prop) → Prop
  | .auditEvents, v, P => (∀ records, Consumed records id → P (.ok records) true) ∧
      (v = false → ∀ error, P (.error error) false)
  | .submit _, _, _ => False
  | .openStore, v, P | .confirmKey, v, P | .clock, v, P | .idSource, v, P
  | .requestIdSource, v, P | .resolve, v, P | .prepare, v, P | .appendAudit _, v, P
  | .recordReceipt _, v, P | .answer, v, P => ∀ reply, P reply v

theorem carrySpec_monotone (confirm : Option Text) : Program.Monotone (CarrySpec confirm) := by
  intro a v P Q hPQ h
  cases a with
  | auditEvents => exact fun reply ↦ hPQ _ _ (h reply)
  | submit route => exact ⟨h.1, hPQ _ _ h.2⟩
  | appendAudit event => exact ⟨h.1, fun ok ↦ hPQ _ _ (h.2 ok)⟩
  | openStore => exact fun reply ↦ hPQ _ _ (h reply)
  | confirmKey => exact fun reply ↦ hPQ _ _ (h reply)
  | clock => exact fun reply ↦ hPQ _ _ (h reply)
  | idSource => exact fun reply ↦ hPQ _ _ (h reply)
  | requestIdSource => exact fun reply ↦ hPQ _ _ (h reply)
  | resolve => exact fun reply ↦ hPQ _ _ (h reply)
  | prepare => exact fun reply ↦ hPQ _ _ (h reply)
  | recordReceipt kind => exact fun reply ↦ hPQ _ _ (h reply)
  | answer => exact fun reply ↦ hPQ _ _ (h reply)

theorem barredSpec_monotone (id : Text) : Program.Monotone (BarredSpec id) := by
  intro a v P Q hPQ h
  cases a with
  | auditEvents => exact ⟨fun records hrecords ↦ hPQ _ _ (h.1 records hrecords),
      fun hv error ↦ hPQ _ _ (h.2 hv error)⟩
  | submit route => exact h
  | appendAudit event => exact fun reply ↦ hPQ _ _ (h reply)
  | openStore => exact fun reply ↦ hPQ _ _ (h reply)
  | confirmKey => exact fun reply ↦ hPQ _ _ (h reply)
  | clock => exact fun reply ↦ hPQ _ _ (h reply)
  | idSource => exact fun reply ↦ hPQ _ _ (h reply)
  | requestIdSource => exact fun reply ↦ hPQ _ _ (h reply)
  | resolve => exact fun reply ↦ hPQ _ _ (h reply)
  | prepare => exact fun reply ↦ hPQ _ _ (h reply)
  | recordReceipt kind => exact fun reply ↦ hPQ _ _ (h reply)
  | answer => exact fun reply ↦ hPQ _ _ (h reply)

/-- An invocation keeps to its confirmation. -/
abbrev Carries (confirm : Option Text) (rest : WriteM WriteOutcome) (v : Text → Prop) : Prop :=
  Program.Holds (CarrySpec confirm) (fun _ _ ↦ True) rest v

/-- An invocation is barred from submitting. -/
abbrev IsBarred (id : Text) (rest : WriteM WriteOutcome) (v : Bool) : Prop :=
  Program.Holds (BarredSpec id) (fun _ _ ↦ True) rest v

section Programs

variable {hmac : Hmac} {confirm : Option Text} {v : Text → Prop}

theorem carries_executeWrite {confirmed : Option Text} {requestId : Text}
    (hid : ∀ token, confirm = some token → Names token requestId ∧ v requestId)
    (hconfirmed : ∀ id, confirmed = some id → confirm.isSome ∧ id = requestId) :
    Carries confirm (executeWrite confirmed requestId) v := by
  unfold executeWrite
  refine ⟨fun token htoken ↦ ⟨requestId, hid token htoken |>.1, (hid token htoken).2, rfl⟩, ?_⟩
  intro executed
  dsimp only
  split_ifs with hexecuted
  · intro receipt
    cases confirmed with
    | none => trivial
    | some id =>
        obtain ⟨hsome, rfl⟩ := hconfirmed id rfl
        obtain ⟨token, htoken⟩ := Option.isSome_iff_exists.mp hsome
        obtain ⟨hnames, hv⟩ := hid token htoken
        exact ⟨⟨token, id, htoken, hnames, hv, rfl⟩, fun ok ↦ trivial⟩
  · exact fun reply ↦ trivial

theorem carries_runWrite {grant : WriteAuthorization} {sql : Text} {confirmed : Option Text}
    (hconfirmed : ∀ id, confirmed = some id → ∃ token, confirm = some token ∧ Names token id ∧ v id)
    (hnone : confirmed = none → confirm = none) :
    Carries confirm (runWrite grant sql confirmed) v := by
  unfold runWrite
  split_ifs with hcovers
  · intro resolved
    dsimp only
    split_ifs with hresolved
    · refine ⟨trivial, fun ok prepared ↦ ?_⟩
      dsimp only
      split_ifs with hprepared
      · cases confirmed with
        | none =>
            intro source
            apply carries_executeWrite
            · rw [hnone rfl]
              exact fun token htoken ↦ absurd htoken (by simp)
            · exact fun id hid ↦ absurd hid (by simp)
        | some id =>
            obtain ⟨token, rfl, hnames, hv⟩ := hconfirmed id rfl
            apply carries_executeWrite
            · rintro token' ⟨⟩
              exact ⟨hnames, hv⟩
            · rintro id' ⟨⟩
              exact ⟨rfl, rfl⟩
      · exact fun reply ↦ trivial
    · exact ⟨trivial, fun ok ↦ trivial⟩
  · trivial

theorem carries_recordIssued {profile sql : Text} {kind : WriteStatementKind} {id : Text}
    (hid : redact id = id) :
    Program.Holds (CarrySpec confirm) (fun _ _ ↦ True) (recordIssued hmac profile sql kind id) v := by
  intro key
  dsimp only
  split
  · trivial
  · intro now
    refine ⟨?_, fun ok ↦ trivial⟩
    show redact (redact id) = redact id
    rw [hid, hid]

theorem carries_afterLadder {stored confirmed : Bool} {profile sql : Text} {kind : WriteStatementKind}
    {id : Text} {decision : WriteIntentDecision}
    (hid : ∀ plan, decision = .dryRunPlanned plan → redact id = id)
    (hconfirmed : confirmed = confirm.isSome)
    (hknown : ∀ token, confirm = some token → Names token id ∧ v id)
    (hgrant : ∀ grant, decision = .executionAuthorized grant →
      grant.plan.receipt.requestId = String.ofList id) :
    Carries confirm (afterLadder hmac stored profile sql kind id confirmed decision) v := by
  cases decision with
  | refused refusal => exact ⟨trivial, fun ok ↦ trivial⟩
  | dryRunPlanned plan =>
      unfold afterLadder
      dsimp only
      split_ifs with hstored
      · exact Program.Holds.bind (Φ := CarrySpec confirm) (carrySpec_monotone confirm)
          (carries_recordIssued (hid plan rfl)) fun recorded v' _ ↦ trivial
      · trivial
  | executionAuthorized grant =>
      have hrequest : grant.plan.receipt.requestId.toList = id := by
        rw [hgrant grant rfl, String.toList_ofList]
      unfold afterLadder
      dsimp only
      rw [hrequest, hconfirmed]
      cases confirm with
      | none => exact carries_runWrite (by simp) (by simp)
      | some token =>
          apply carries_runWrite
          · rintro id' ⟨⟩
            exact ⟨token, rfl, hknown token rfl⟩
          · simp

theorem carries_climbLadder {stored : Bool} {profile sql : Text} {kind : WriteStatementKind}
    {mode : WriteIntentMode} {policy : WriteIntentPolicy} {id : Text}
    (hid : mode = .planDryRun → redact id = id)
    (hknown : ∀ token, confirm = some token → Names token id ∧ v id) :
    Carries confirm (climbLadder hmac stored profile sql kind mode policy confirm id) v := by
  apply carries_afterLadder _ rfl hknown
  · exact fun grant hgrant ↦ evaluateWriteIntent_requestId rfl hgrant
  · exact fun plan hplan ↦ hid (evaluateWriteIntent_planned hplan)

/-- An accepted token names a dry run that the log holds. -/
theorem carries_verify {stored : Bool} {ttl : Option Nat} {profile sql token : Text}
    {kind : WriteStatementKind} : Program.Holds (CarrySpec confirm)
      (fun reply v' ↦ ∀ id, reply = .ok id → Names token id ∧ v' id)
      (verify hmac stored ttl profile sql kind token) v := by
  have herror {error : String} {v' : Text → Prop} :
      ∀ id, (.error error : Except String Text) = .ok id → Names token id ∧ v' id := by simp
  unfold verify
  split
  · exact herror
  · dsimp only
    split
    · exact herror
    · rename_i id hprefix
      intro log
      dsimp only
      split
      · exact herror
      · rename_i issued hissued
        intro key
        dsimp only
        split
        · exact herror
        · split
          · exact herror
          · intro now
            dsimp only
            split
            · exact herror
            · intro log'
              dsimp only
              split
              · exact herror
              · rintro id' ⟨⟩
                exact ⟨names_of_stripPrefix hprefix, Or.inl (Or.inr (issued_of_findDryRun hissued))⟩

theorem carries_writeStatement {settings : WriteSettings} {profile sql : Text}
    {kind : WriteStatementKind} {mode : WriteIntentMode}
    (hmode : confirm.isSome → mode = .prepareExecution) :
    Carries confirm (writeStatement hmac settings profile sql kind mode confirm) v := by
  unfold writeStatement
  split
  · trivial
  · intro stored
    dsimp only
    split
    · rename_i token
      refine Program.Holds.bind (Φ := CarrySpec (some token)) (carrySpec_monotone _) carries_verify
        fun reply v' hreply ↦ ?_
      cases reply with
      | error reason => exact ⟨trivial, fun ok ↦ trivial⟩
      | ok id =>
          apply carries_climbLadder
          · intro hplan
            cases hplan.symm.trans (hmode rfl)
          · rintro token' ⟨⟩
            exact hreply id rfl
    · intro source
      apply carries_climbLadder
      · exact fun hplan ↦ redact_id source
      · simp

theorem carries_queryWrite (command : WriteCommand) :
    Carries command.confirm (queryWrite hmac command) v := by
  unfold queryWrite
  split
  · trivial
  · trivial
  · split
    · trivial
    · split
      · trivial
      · split
        · trivial
        · dsimp only
          split
          · trivial
          · split
            · trivial
            · rename_i mode hmode
              apply carries_writeStatement
              intro hconfirm
              rw [writeMode, if_pos hconfirm] at hmode
              exact (Option.some.inj hmode).symm

/-! ### Barred invocations -/

variable {id : Text}

/-- A token that is used is refused. -/
theorem isBarred_verify {stored : Bool} {ttl : Option Nat} {profile sql token : Text}
    {kind : WriteStatementKind} (hnames : Names token id) :
    Program.Holds (BarredSpec id) (fun reply _ ↦ ∃ error, reply = .error error)
      (verify hmac stored ttl profile sql kind token) false := by
  have herror {error : String} : ∃ error', (.error error : Except String Text) = .error error' :=
    ⟨error, rfl⟩
  unfold verify
  split
  · exact herror
  · dsimp only
    split
    · exact herror
    · rename_i id' hprefix
      obtain rfl := hnames.unique (names_of_stripPrefix hprefix)
      constructor
      · intro records hrecords
        dsimp only
        split
        · exact herror
        · intro key
          dsimp only
          split
          · exact herror
          · split
            · exact herror
            · intro now
              dsimp only
              split
              · exact herror
              · refine ⟨fun records' hrecords' ↦ ?_, fun hv ↦ absurd hv (by decide)⟩
                dsimp only
                split
                · exact herror
                · rename_i hnone
                  exact absurd hnone (confirmationConsumedBy_of_consumed hrecords')
      · intro _ error
        exact herror

theorem isBarred_queryWrite {command : WriteCommand} {token : Text}
    (hconfirm : command.confirm = some token) (hnames : Names token id) :
    IsBarred id (queryWrite hmac command) false := by
  unfold queryWrite
  split
  · trivial
  · trivial
  · split
    · trivial
    · split
      · trivial
      · split
        · trivial
        · dsimp only
          split
          · trivial
          · split
            · trivial
            · unfold writeStatement
              split
              · trivial
              · intro stored
                rw [hconfirm]
                dsimp only
                refine Program.Holds.bind (Φ := BarredSpec id) (barredSpec_monotone id)
                  (isBarred_verify hnames) fun reply v hreply ↦ ?_
                obtain ⟨error, rfl⟩ := hreply
                exact fun ok ↦ trivial

end Programs

/-! ## What requests do to the log -/

section Log

variable {backend : StoreBackend} {log log' : AuditLog} {event : AuditEvent} {ok : Bool}

theorem subset_insertRecord (records : List AuditEventRecord) (record : AuditEventRecord) :
    records ⊆ insertRecord records record := by
  unfold insertRecord
  split_ifs with h
  · exact List.Subset.refl _
  · exact List.subset_cons_self _ _

/-- After an insertion the log holds the event, and nothing else is new. -/
theorem mem_insertRecord {records : List AuditEventRecord} (record : AuditEventRecord)
    (haddress : ∀ r ∈ records, r.eventId = record.eventId → r.event = record.event) :
    (∃ r ∈ insertRecord records record, r.event = record.event) ∧
      ∀ r ∈ insertRecord records record, r ∈ records ∨ r.event = record.event := by
  unfold insertRecord
  split_ifs with h
  · obtain ⟨r, hr, hid⟩ := List.any_eq_true.mp h
    exact ⟨⟨r, hr, haddress r hr (of_decide_eq_true hid)⟩, fun r hr ↦ Or.inl hr⟩
  · refine ⟨⟨record, List.mem_cons_self, rfl⟩, fun r hr ↦ ?_⟩
    rcases List.mem_cons.mp hr with rfl | hr
    · exact Or.inr rfl
    · exact Or.inl hr

/-- The log grows by at most the event, and does so where the append succeeds on a log that
is not torn. -/
structure Grows (log log' : AuditLog) (event : AuditEvent) (ok : Bool) : Prop where
  subset : log.records ⊆ log'.records
  new : ∀ record ∈ log'.records, record ∈ log.records ∨ record.event = event
  stored : ok = true → log.torn = false → ∃ record ∈ log'.records, record.event = event

theorem Appends.grows (h : Appends backend log event ok log') : Grows log log' event ok := by
  cases h with
  | stored eventId createdAtMs htorn haddress =>
      obtain ⟨hstored, hnew⟩ := mem_insertRecord ⟨eventId, createdAtMs, event⟩ haddress
      exact ⟨subset_insertRecord _ _, hnew, fun _ _ ↦ hstored⟩
  | glued htorn =>
      refine ⟨List.Subset.refl _, fun record h ↦ Or.inl h, fun _ hsound ↦ ?_⟩
      cases hsound.symm.trans htorn
  | unreported eventId createdAtMs htorn haddress =>
      obtain ⟨-, hnew⟩ := mem_insertRecord ⟨eventId, createdAtMs, event⟩ haddress
      exact ⟨subset_insertRecord _ _, hnew, fun hok ↦ absurd hok (by decide)⟩
  | failed => exact ⟨List.Subset.refl _, fun record h ↦ Or.inl h, fun hok ↦ absurd hok (by decide)⟩
  | cut hfile =>
      exact ⟨List.Subset.refl _, fun record h ↦ Or.inl h, fun hok ↦ absurd hok (by decide)⟩

/-- What a request appends, if anything. -/
def Action.appended : Action → Option AuditEvent
  | .appendAudit event => some event
  | .recordReceipt kind => some (.other kind)
  | .openStore | .auditEvents | .confirmKey | .clock | .idSource | .requestIdSource | .resolve
  | .prepare | .submit _ | .answer => none

variable {image image' : Option (List AuditEventRecord)} {a : Action} {reply : a.Reply}

theorem Replies.subset (h : Replies backend log image a reply image' log') :
    log.records ⊆ log'.records := by
  cases h with
  | read h => exact List.Subset.refl _
  | append h => exact h.grows.subset
  | receipt h reply => exact h.grows.subset
  | other h reply => exact List.Subset.refl _

theorem Replies.new (h : Replies backend log image a reply image' log') :
    ∀ record ∈ log'.records, record ∈ log.records ∨ a.appended = some record.event := by
  intro record hrecord
  cases h with
  | read h => exact Or.inl hrecord
  | append h => exact (h.grows.new record hrecord).imp_right fun heq ↦ by rw [heq]; rfl
  | receipt h reply => exact (h.grows.new record hrecord).imp_right fun heq ↦ by rw [heq]; rfl
  | other h reply => exact Or.inl hrecord

/-- An image is part of the log. -/
theorem Replies.image_subset (h : Replies backend log image a reply image' log')
    (himage : ∀ records ∈ image, records ⊆ log.records) :
    ∀ records ∈ image', records ⊆ log'.records := by
  intro records hrecords
  cases h with
  | read h =>
      cases h with
      | first => rw [← Option.some.inj hrecords]; exact List.Subset.refl _
      | firstFails error => cases hrecords
      | loaded image hfile => exact himage records hrecords
      | again image hsqlite => rw [← Option.some.inj hrecords]; exact List.Subset.refl _
      | againFails image error hsqlite => exact himage records hrecords
  | append h => exact List.Subset.trans (himage records hrecords) h.grows.subset
  | receipt h reply => exact List.Subset.trans (himage records hrecords) h.grows.subset
  | other h reply => exact himage records hrecords

/-! ### The specifications -/

variable {confirm : Option Text} {v : Text → Prop} {P : a.Reply → (Text → Prop) → Prop}

theorem CarrySpec.appends (h : CarrySpec confirm a v P) (ha : a.appended = some event) :
    MayAppend confirm v event := by
  cases a with
  | appendAudit event' =>
      rw [← Option.some.inj ha]
      exact h.1
  | recordReceipt kind =>
      rw [← Option.some.inj ha]
      trivial
  | openStore | auditEvents | confirmKey | clock | idSource | requestIdSource | resolve | prepare
  | submit | answer => cases ha

/-- Whatever the reply, what is known then is issued. -/
theorem CarrySpec.replies (h : CarrySpec confirm a v P) (hv : ∀ id, v id → Issued log.records id)
    (himage : ∀ records ∈ image, records ⊆ log.records)
    (hreply : Replies backend log image a reply image' log') :
    ∃ v', (∀ id, v' id → Issued log'.records id) ∧ P reply v' := by
  have hv' : ∀ id, v id → Issued log'.records id := fun id hid ↦ (hv id hid).mono hreply.subset
  cases hreply with
  | read hread =>
      refine ⟨_, fun id hid ↦ ?_, h _⟩
      rcases hid with hid | ⟨records, rfl, hissued⟩
      · exact hv id hid
      · apply hissued.mono
        cases hread with
        | first => exact List.Subset.refl _
        | loaded image hfile => exact himage records rfl
        | again image hsqlite => exact List.Subset.refl _
  | append happend => exact ⟨v, hv', h.2 _⟩
  | receipt happend reply => exact ⟨v, hv', h reply⟩
  | other hlocal reply =>
      cases a with
      | submit route => exact ⟨v, hv', h.2⟩
      | auditEvents | appendAudit | recordReceipt => exact hlocal.elim
      | openStore => exact ⟨v, hv', h reply⟩
      | confirmKey => exact ⟨v, hv', h reply⟩
      | clock => exact ⟨v, hv', h reply⟩
      | idSource => exact ⟨v, hv', h reply⟩
      | requestIdSource => exact ⟨v, hv', h reply⟩
      | resolve => exact ⟨v, hv', h reply⟩
      | prepare => exact ⟨v, hv', h reply⟩
      | answer => exact ⟨v, hv', h reply⟩

variable {id : Text} {barred : Bool} {Q : a.Reply → Bool → Prop}

/-- A barred invocation stays barred, if a second read does not fail. -/
theorem BarredSpec.replies (h : BarredSpec id a image.isSome Q) (hconsumed : Consumed log.records id)
    (himage : ∀ records ∈ image, Consumed records id)
    (hsafe : ∀ error, a = .auditEvents → HEq reply (Except.error error : Except String
      (List AuditEventRecord)) → image = none)
    (hreply : Replies backend log image a reply image' log') :
    (∀ records ∈ image', Consumed records id) ∧ Q reply image'.isSome ∧ ∀ route, a ≠ .submit route := by
  cases hreply with
  | read hread =>
      cases hread with
      | first => exact ⟨by rintro _ ⟨⟩; exact hconsumed, h.1 _ hconsumed, by simp⟩
      | firstFails error => exact ⟨himage, h.2 rfl error, by simp⟩
      | loaded image hfile => exact ⟨himage, h.1 _ (himage image rfl), by simp⟩
      | again image hsqlite => exact ⟨by rintro _ ⟨⟩; exact hconsumed, h.1 _ hconsumed, by simp⟩
      | againFails image error hsqlite => cases hsafe error rfl HEq.rfl
  | append happend => exact ⟨himage, h _, by simp⟩
  | receipt happend reply => exact ⟨himage, h _, by simp⟩
  | other hlocal reply =>
      cases a with
      | submit route => exact h.elim
      | auditEvents | appendAudit | recordReceipt => exact hlocal.elim
      | openStore => exact ⟨himage, h reply, by simp⟩
      | confirmKey => exact ⟨himage, h reply, by simp⟩
      | clock => exact ⟨himage, h reply, by simp⟩
      | idSource => exact ⟨himage, h reply, by simp⟩
      | requestIdSource => exact ⟨himage, h reply, by simp⟩
      | resolve => exact ⟨himage, h reply, by simp⟩
      | prepare => exact ⟨himage, h reply, by simp⟩
      | answer => exact ⟨himage, h reply, by simp⟩

end Log

end FrankenSnowflake.ConfirmedWrite
