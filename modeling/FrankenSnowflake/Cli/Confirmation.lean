import Mathlib.Data.List.Sort
import Mathlib.Tactic.Tauto
import FrankenSnowflake.Core.WriteIntent

/-!
# Confirmation tokens

A dry run of a write records a confirmation on the append-only audit log and
hands out the token `confirm:<kind>:<id>`.  A later `--confirm` presents the
token with a SQL text; `verifyConfirmation` looks the id up in the log and
compares the keyed digest of the text with the recorded one.

The digest is taken over `compactSql`, which collapses whitespace without
regard to quotes and comments.  The last section says which pairs of texts a
token can then not tell apart.
-/

namespace FrankenSnowflake.Confirmation

open SqlLexer Redact WriteIntent

/-! ## Whitespace compaction -/

/-- `char::is_whitespace`: the Unicode `White_Space` property. -/
def isWhitespace (c : Char) : Bool :=
  let n := c.toNat
  (0x09 ≤ n && n ≤ 0x0d) || n == 0x20 || n == 0x85 || n == 0xa0 || n == 0x1680 ||
    (0x2000 ≤ n && n ≤ 0x200a) || n == 0x2028 || n == 0x2029 || n == 0x202f || n == 0x205f ||
    n == 0x3000

/-- `split_whitespace`, joined again by single spaces. -/
def compactSql (sql : List Char) : List Char :=
  [' '].intercalate ((sql.splitOnP isWhitespace).filter (· ≠ []))

/-! ## The audit log -/

/-- A dry run the write ladder issued a confirmation token for. -/
structure IssuedConfirmation where
  confirmId : List Char
  profile : List Char
  /-- Keyed digest of the statement. -/
  sqlDigest : List Char
  /-- Statement-kind token (`insert`, `merge`, ...). -/
  statementKind : List Char
  issuedAtMs : Nat
deriving DecidableEq, Repr

/-- The strings of an audit event pass the shared redactor before it is written. -/
def IssuedConfirmation.redacted (issued : IssuedConfirmation) : IssuedConfirmation :=
  { issued with
    confirmId := redact issued.confirmId
    profile := redact issued.profile
    sqlDigest := redact issued.sqlDigest
    statementKind := redact issued.statementKind }

/-- The audit events the confirmation ladder reads, and the rest. -/
inductive AuditEvent where
  | writeDryRun (issued : IssuedConfirmation)
  | writeConfirmConsumed (confirmId : List Char) (receiptHash : Option (List Char))
  | other (eventKind : String)
deriving DecidableEq, Repr

structure AuditEventRecord where
  eventId : String
  createdAtMs : Nat
  event : AuditEvent
deriving DecidableEq, Repr

/-- An opened local store: what reading or first creating its digest key gives,
its audit log, and why the log cannot be appended to, if it cannot. -/
structure Store where
  confirmKey : Except String (List UInt8)
  auditLog : Except String (List AuditEventRecord)
  appendError : Option String := none

/-- The log is read in the order of `created_at_ms`, then `event_id`. -/
def recordLe (a b : AuditEventRecord) : Prop :=
  a.createdAtMs < b.createdAtMs ∨ (a.createdAtMs = b.createdAtMs ∧ a.eventId ≤ b.eventId)

instance : DecidableRel recordLe := fun a b ↦
  inferInstanceAs (Decidable (a.createdAtMs < b.createdAtMs ∨
    (a.createdAtMs = b.createdAtMs ∧ a.eventId ≤ b.eventId)))

namespace Store

/-- The audit events in log order; none when the log cannot be read. -/
def auditEvents (store : Store) : List AuditEvent :=
  match store.auditLog with
  | .ok log => (log.insertionSort recordLe).map (·.event)
  | .error _ => []

/-- Append a record; the first record under an event id stays. -/
def appendAudit (store : Store) (record : AuditEventRecord) : Except String Store :=
  match store.auditLog, store.appendError with
  | .error error, _ | .ok _, some error => .error error
  | .ok log, none =>
      .ok { store with
        auditLog := .ok (if log.any (·.eventId = record.eventId) then log else record :: log) }

/-- The dry runs the log holds. -/
def dryRuns (store : Store) : List IssuedConfirmation :=
  store.auditEvents.filterMap fun event ↦
    match event with
    | .writeDryRun issued => some issued
    | _ => none

/-- The dry run a confirmation id names, if this store issued it. -/
def findDryRun (store : Store) (confirmId : List Char) : Option IssuedConfirmation :=
  store.dryRuns.find? fun issued ↦ issued.confirmId = confirmId

/-- The receipt of the completed write that already used a confirmation. -/
def confirmationConsumedBy (store : Store) (confirmId : List Char) : Option (List Char) :=
  store.auditEvents.findSome? fun event ↦
    match event with
    | .writeConfirmConsumed id receipt => if id = confirmId then some (receipt.getD []) else none
    | _ => none

end Store

/-! ## Ids and digests -/

/-- Bytes in lower-case hexadecimal, two digits each. -/
def hexLower (bytes : List UInt8) : List Char :=
  bytes.flatMap fun b ↦ [Nat.digitChar (b.toNat / 16), Nat.digitChar (b.toNat % 16)]

/-- The UUID-shaped id of 16 random bytes. -/
def randomId (bytes : List UInt8) : List Char :=
  let bytes := (bytes.modify 6 fun b ↦ (b &&& 0x0f) ||| 0x40).modify 8 fun b ↦
    (b &&& 0x3f) ||| 0x80
  let hex := hexLower bytes
  let slice := fun lo hi ↦ (hex.take hi).drop lo
  slice 0 8 ++ '-' :: slice 8 12 ++ '-' :: slice 12 16 ++ '-' :: slice 16 20 ++
    '-' :: slice 20 32

/-- HMAC-SHA256 of a message under a key: a function outside the repository. -/
abbrev Hmac := List UInt8 → List Char → Except String (List UInt8)

/-- Digest of a profile and a statement under the store's key. -/
def keyedSqlDigest (hmac : Hmac) (store : Store) (profile sql : List Char) :
    Except String (List Char) := do
  let key ← store.confirmKey
  match hmac key (profile ++ '\x1f' :: sql) with
  | .ok bytes => pure (hexLower bytes)
  | .error error => throw ("bad confirmation key: " ++ error)

/-! ## Issuing and verifying -/

/-- `record_dry_run`: `eventId` and `createdAtMs` are the content address and
the clock reading of the append. -/
def recordDryRun (store : Store) (eventId : String) (createdAtMs : Nat)
    (issued : IssuedConfirmation) : Except String Store :=
  store.appendAudit { eventId, createdAtMs, event := .writeDryRun issued.redacted }

def recordIssuedConfirmation (hmac : Hmac) (store : Store) (eventId : String)
    (issuedAtMs createdAtMs : Nat) (profile sql : List Char) (kind : WriteStatementKind)
    (confirmId : List Char) : Except String Store := do
  let sqlDigest ← keyedSqlDigest hmac store profile (compactSql sql)
  recordDryRun store eventId createdAtMs
    { confirmId, profile, sqlDigest, statementKind := kind.asToken.toList, issuedAtMs }

/-- Default lifetime of a confirmation token. -/
def defaultWriteTokenTtlSeconds : Nat := 900

/-- `str::strip_prefix`. -/
def stripPrefix? (p s : List Char) : Option (List Char) :=
  if p.isPrefixOf s then some (s.drop p.length) else none

/-- What a token of a kind starts with. -/
def confirmPrefix (kind : WriteStatementKind) : List Char :=
  ("confirm:" ++ kind.asToken ++ ":").toList

/-- `u64::saturating_mul` by 1000. -/
def toMillis (seconds : Nat) : Nat := min (seconds * 1000) (2 ^ 64 - 1)

/-- Check a supplied `--confirm` against the dry run it names: `now` is the clock
and `ttl` the profile's `WRITE_TOKEN_TTL_SECONDS`. -/
def verifyConfirmation (hmac : Hmac) (store : Option Store) (now : Nat) (ttl : Option Nat)
    (profile sql : List Char) (statementKind : WriteStatementKind) (token : List Char) :
    Except String (List Char) :=
  match store with
  | none => .error "the local store is unavailable, so the token cannot be verified"
  | some store =>
  let kind := statementKind.asToken
  match stripPrefix? (confirmPrefix statementKind) token with
  | none => .error s!"the token is not a `{kind}` confirmation (expected confirm:{kind}:<id> from a dry run of this statement)"
  | some id =>
  match store.findDryRun id with
  | none => .error "the token names no dry run recorded in this data directory; run `query write --dry-run` first"
  | some issued =>
  match keyedSqlDigest hmac store profile (compactSql sql) with
  | .error error => .error error
  | .ok digest =>
  if issued.profile ≠ profile ∨ issued.sqlDigest ≠ digest ∨ issued.statementKind ≠ kind.toList then
    .error "the token was issued for a different statement or profile"
  else
  let ttlSeconds := ttl.getD defaultWriteTokenTtlSeconds
  let ageMs := now - issued.issuedAtMs
  let ageSeconds := ageMs / 1000
  if toMillis ttlSeconds ≤ ageMs then
    .error s!"the token expired: issued {ageSeconds} s ago, lifetime {ttlSeconds} s; dry-run again"
  else
  match store.confirmationConsumedBy id with
  | some receipt =>
      let receipt := String.ofList receipt
      .error s!"the token was already used by a completed write (receipt {receipt}); dry-run again for a new one"
  | none => .ok id

/-! ## Recorded strings

Ids, digests and kind tokens have no secret shape, so the redactor at the audit
sink writes them as they are. -/

/-- The characters of ids and digests. -/
def hexAlphabet : List Char := "0123456789abcdef-".toList

theorem digitChar_mem_hexAlphabet : ∀ n < 16, Nat.digitChar n ∈ hexAlphabet := by decide

theorem hexLower_alphabet {bytes : List UInt8} {c : Char} (h : c ∈ hexLower bytes) :
    c ∈ hexAlphabet := by
  obtain ⟨b, -, hb⟩ := List.mem_flatMap.mp h
  have hlt : b.toNat < 256 := b.toNat_lt
  rcases (by simpa using hb : c = _ ∨ c = _) with rfl | rfl
  · exact digitChar_mem_hexAlphabet _ (by omega)
  · exact digitChar_mem_hexAlphabet _ (by omega)

theorem randomId_alphabet {bytes : List UInt8} {c : Char} (h : c ∈ randomId bytes) :
    c ∈ hexAlphabet := by
  have hslice : ∀ {bytes lo hi}, c ∈ ((hexLower bytes).take hi).drop lo → c ∈ hexAlphabet :=
    fun h ↦ hexLower_alphabet (List.mem_of_mem_take (List.mem_of_mem_drop h))
  have hdash : c = '-' → c ∈ hexAlphabet := by
    rintro rfl
    decide
  simp only [randomId, List.mem_append, List.mem_cons] at h
  tauto

theorem redact_of_hexAlphabet {s : List Char} (h : ∀ c ∈ s, c ∈ hexAlphabet) : redact s = s :=
  redact_eq_self (containsSecret_eq_false h (by decide +kernel) (by decide) (by decide))

theorem redact_asToken (kind : WriteStatementKind) :
    redact kind.asToken.toList = kind.asToken.toList := by
  have hall : ∀ k ∈ WriteStatementKind.all, redact k.asToken.toList = k.asToken.toList := by
    decide +kernel
  exact hall kind kind.mem_all

/-! ## What recording and verifying do -/

theorem mem_dryRuns {store : Store} {issued : IssuedConfirmation} :
    issued ∈ store.dryRuns ↔
      ∃ log, store.auditLog = .ok log ∧ ∃ record ∈ log, record.event = .writeDryRun issued := by
  unfold Store.dryRuns Store.auditEvents
  cases hlog : store.auditLog with
  | error => simp
  | ok log =>
      simp only [Except.ok.injEq, exists_eq_left', List.filterMap_map, List.mem_filterMap,
        Function.comp_apply, List.mem_insertionSort]
      refine exists_congr fun record ↦ and_congr_right fun _ ↦ ?_
      cases record.event <;> simp

theorem findDryRun_eq_some {store : Store} {id : List Char} {issued : IssuedConfirmation}
    (h : store.findDryRun id = some issued) : issued ∈ store.dryRuns ∧ issued.confirmId = id :=
  ⟨List.mem_of_find?_eq_some h, by simpa using List.find?_some h⟩

/-- An append adds at most its own dry run, and keeps the key. -/
theorem recordDryRun_eq_ok {store store' : Store} {eventId : String} {createdAtMs : Nat}
    {issued : IssuedConfirmation} (h : recordDryRun store eventId createdAtMs issued = .ok store') :
    store'.confirmKey = store.confirmKey ∧
      ∀ i ∈ store'.dryRuns, i ∈ store.dryRuns ∨ i = issued.redacted := by
  unfold recordDryRun Store.appendAudit at h
  split at h
  next => cases h
  next => cases h
  next log hlog _ =>
    obtain rfl := Except.ok.inj h
    refine ⟨rfl, fun i hi ↦ ?_⟩
    obtain ⟨log', hlog', record, hmem, hevent⟩ := mem_dryRuns.mp hi
    obtain rfl := Except.ok.inj hlog'
    split_ifs at hmem
    · exact Or.inl (mem_dryRuns.mpr ⟨log, hlog, record, hmem, hevent⟩)
    · rcases List.mem_cons.mp hmem with rfl | hmem
      · exact Or.inr (by simpa using hevent.symm)
      · exact Or.inl (mem_dryRuns.mpr ⟨log, hlog, record, hmem, hevent⟩)

theorem recordIssuedConfirmation_eq_ok {hmac : Hmac} {store store' : Store} {eventId : String}
    {issuedAtMs createdAtMs : Nat} {profile sql : List Char} {kind : WriteStatementKind}
    {confirmId : List Char}
    (h : recordIssuedConfirmation hmac store eventId issuedAtMs createdAtMs profile sql kind
      confirmId = .ok store') :
    ∃ sqlDigest, keyedSqlDigest hmac store profile (compactSql sql) = .ok sqlDigest ∧
      recordDryRun store eventId createdAtMs
        { confirmId, profile, sqlDigest, statementKind := kind.asToken.toList, issuedAtMs } =
        .ok store' := by
  unfold recordIssuedConfirmation at h
  cases hdigest : keyedSqlDigest hmac store profile (compactSql sql) with
  | error error => simp [hdigest, bind, Except.bind] at h
  | ok sqlDigest => exact ⟨sqlDigest, rfl, by simpa [hdigest, bind, Except.bind] using h⟩

/-- A digest is lower-case hexadecimal, so the audit sink keeps it. -/
theorem redact_keyedSqlDigest {hmac : Hmac} {store : Store} {profile sql digest : List Char}
    (h : keyedSqlDigest hmac store profile sql = .ok digest) : redact digest = digest := by
  unfold keyedSqlDigest at h
  cases hkey : store.confirmKey with
  | error => simp [hkey, bind, Except.bind] at h
  | ok key =>
      cases hbytes : hmac key (profile ++ '\x1f' :: sql) with
      | error => simp [hkey, hbytes, bind, Except.bind, throw, throwThe, MonadExceptOf.throw] at h
      | ok bytes =>
          obtain rfl : hexLower bytes = digest := by
            simpa [hkey, hbytes, bind, Except.bind, pure, Except.pure] using h
          exact redact_of_hexAlphabet fun c ↦ hexLower_alphabet

/-- The checks an accepted token passed. -/
theorem verifyConfirmation_eq_ok {hmac : Hmac} {store : Store} {now : Nat} {ttl : Option Nat}
    {profile sql : List Char} {kind : WriteStatementKind} {token id : List Char}
    (h : verifyConfirmation hmac (some store) now ttl profile sql kind token = .ok id) :
    stripPrefix? (confirmPrefix kind) token = some id ∧
      ∃ issued, store.findDryRun id = some issued ∧ issued.profile = profile ∧
        keyedSqlDigest hmac store profile (compactSql sql) = .ok issued.sqlDigest ∧
        issued.statementKind = kind.asToken.toList ∧
        now - issued.issuedAtMs < toMillis (ttl.getD defaultWriteTokenTtlSeconds) ∧
        store.confirmationConsumedBy id = none := by
  unfold verifyConfirmation at h
  simp only at h
  split at h
  next => cases h
  next id' hstarts =>
  split at h
  next => cases h
  next issued hissued =>
  split at h
  next => cases h
  next digest hdigest =>
  split at h
  next => cases h
  next hsame =>
  split at h
  next => cases h
  next halive =>
  split at h
  next => cases h
  next hunused =>
    obtain rfl := Except.ok.inj h
    push Not at hsame halive
    obtain ⟨hprofile, rfl, hkind⟩ := hsame
    exact ⟨hstarts, issued, hissued, hprofile, hdigest, hkind, halive, hunused⟩

/-- Verification reads a text through its compaction only. -/
theorem verifyConfirmation_congr {hmac : Hmac} {store : Option Store} {now : Nat}
    {ttl : Option Nat} {profile sql sql' : List Char} {kind : WriteStatementKind}
    {token : List Char} (h : compactSql sql = compactSql sql') :
    verifyConfirmation hmac store now ttl profile sql kind token =
      verifyConfirmation hmac store now ttl profile sql' kind token := by
  simp only [verifyConfirmation, h]

theorem takeWhile_asToken (kind : WriteStatementKind) (rest : List Char) :
    (kind.asToken.toList ++ ':' :: rest).takeWhile (· ≠ ':') = kind.asToken.toList := by
  have hcolon : kind.asToken.toList.all (· ≠ ':') := by cases kind <;> decide
  rw [List.takeWhile_append_of_pos (List.all_eq_true.mp hcolon)]
  simp

/-- The id after a token's prefix is the id the token was made from. -/
theorem stripPrefix?_forRequest {id id' : List Char} {kind kind' : WriteStatementKind}
    (h : stripPrefix? (confirmPrefix kind')
      (ConfirmationToken.forRequest (String.ofList id) kind).value.toList = some id') :
    id' = id := by
  unfold stripPrefix? at h
  split_ifs at h with hstarts
  obtain ⟨rest, hrest⟩ := List.isPrefixOf_iff_prefix.mp hstarts
  have hkinds : kind'.asToken.toList ++ ':' :: rest = kind.asToken.toList ++ ':' :: id := by
    simpa [confirmPrefix, ConfirmationToken.forRequest] using hrest
  have hkind : kind'.asToken.toList = kind.asToken.toList := by
    have htake := congrArg (List.takeWhile (· ≠ ':')) hkinds
    rwa [takeWhile_asToken, takeWhile_asToken] at htake
  obtain rfl : rest = id := by simpa [hkind] using hkinds
  rw [← hrest, List.drop_left] at h
  exact (Option.some.inj h).symm

theorem stripPrefix?_forRequest_self (id : List Char) (kind : WriteStatementKind) :
    stripPrefix? (confirmPrefix kind)
      (ConfirmationToken.forRequest (String.ofList id) kind).value.toList = some id := by
  have htoken : (ConfirmationToken.forRequest (String.ofList id) kind).value.toList =
      confirmPrefix kind ++ id := by simp [confirmPrefix, ConfirmationToken.forRequest]
  have hstarts : (confirmPrefix kind).isPrefixOf (confirmPrefix kind ++ id) :=
    List.isPrefixOf_iff_prefix.mpr (List.prefix_append _ _)
  rw [htoken, stripPrefix?, if_pos hstarts, List.drop_left]

/-! ## Confirmed runs -/

/-- Compaction leaves the significant tokens of a text as they are. -/
def Stable (sql : List Char) : Prop :=
  significantContent (compactSql sql) = significantContent sql

instance (sql : List Char) : Decidable (Stable sql) := inferInstanceAs (Decidable (_ = _))

/-- A dry run of `s₁` that recorded a token, and a later verification that
accepts the token for `s₂`. -/
structure ConfirmedRun (hmac : Hmac) (profile s₁ s₂ : List Char) where
  /-- The store before and after the dry run, and when the token is presented. -/
  before : Store
  recorded : Store
  current : Store
  randomBytes : List UInt8
  eventId : String
  issuedAtMs : Nat
  createdAtMs : Nat
  now : Nat
  ttl : Option Nat
  dryRunKind : WriteStatementKind
  confirmKind : WriteStatementKind
  id : List Char
  /-- The store's key gives two texts of the profile different digests. -/
  digest_injective : ∀ s t d, keyedSqlDigest hmac recorded profile s = .ok d →
    keyedSqlDigest hmac recorded profile t = .ok d → s = t
  /-- The random id is new to the store. -/
  fresh : ∀ issued ∈ before.dryRuns, issued.confirmId ≠ randomId randomBytes
  record_eq : recordIssuedConfirmation hmac before eventId issuedAtMs createdAtMs profile s₁
    dryRunKind (randomId randomBytes) = .ok recorded
  /-- Meanwhile the key stays and no other dry run takes the id. -/
  key_eq : current.confirmKey = recorded.confirmKey
  later : ∀ issued ∈ current.dryRuns, issued.confirmId = randomId randomBytes →
    issued ∈ recorded.dryRuns
  verify_eq : verifyConfirmation hmac (some current) now ttl profile s₂ confirmKind
    (ConfirmationToken.forRequest (String.ofList (randomId randomBytes)) dryRunKind).value.toList =
      .ok id

variable {hmac : Hmac} {profile s₁ s₂ : List Char}

theorem keyedSqlDigest_congr {store store' : Store} (h : store'.confirmKey = store.confirmKey)
    (sql : List Char) :
    keyedSqlDigest hmac store' profile sql = keyedSqlDigest hmac store profile sql := by
  simp only [keyedSqlDigest, h]

/-- The accepted text has the compaction of the dry run's text. -/
theorem ConfirmedRun.compactSql_eq (run : ConfirmedRun hmac profile s₁ s₂) :
    compactSql s₁ = compactSql s₂ := by
  obtain ⟨digest, hdigest, hrecord⟩ := recordIssuedConfirmation_eq_ok run.record_eq
  obtain ⟨hkey, hadded⟩ := recordDryRun_eq_ok hrecord
  obtain ⟨hstarts, issued, hfind, -, hverify, -⟩ := verifyConfirmation_eq_ok run.verify_eq
  obtain ⟨hmem, hid⟩ := findDryRun_eq_some hfind
  rw [stripPrefix?_forRequest hstarts] at hid
  -- the id is fresh, so the dry run it names is the one just recorded
  obtain rfl := (hadded issued (run.later issued hmem hid)).resolve_left fun hold ↦
    run.fresh issued hold hid
  simp only [IssuedConfirmation.redacted, redact_keyedSqlDigest hdigest] at hverify
  refine run.digest_injective _ _ digest ?_ ?_
  · rw [keyedSqlDigest_congr hkey, hdigest]
  · rw [← keyedSqlDigest_congr run.key_eq, hverify]

/-! ## Every pair of texts with one compaction is confused

The converse of `compactSql_eq`: a keyed digest that spells its message out
confuses no two messages, and still a token for `s₁` is accepted for every `s₂`
with the same compaction. -/

/-- A collision-free digest: three bytes for each character. -/
def spellingHmac : Hmac := fun _ message ↦
  .ok (message.flatMap fun c ↦
    [UInt8.ofNat (c.toNat / 65536), UInt8.ofNat (c.toNat / 256), UInt8.ofNat c.toNat])

theorem flatMap_injective {α β : Type*} {f : α → List β} {n : Nat}
    (hlen : ∀ a, (f a).length = n + 1) (hf : Function.Injective f) :
    Function.Injective (List.flatMap f) := by
  intro l
  induction l with
  | nil =>
      rintro (_ | ⟨b, l'⟩) h
      · rfl
      · have := congrArg List.length h
        simp [hlen] at this
        omega
  | cons a l ih =>
      rintro (_ | ⟨b, l'⟩) h
      · have := congrArg List.length h
        simp [hlen] at this
      · simp only [List.flatMap_cons] at h
        obtain ⟨hhead, htail⟩ := List.append_inj h (by rw [hlen, hlen])
        rw [hf hhead, ih htail]

theorem hexLower_injective : Function.Injective hexLower := by
  refine flatMap_injective (n := 1) (fun _ ↦ rfl) fun a b h ↦ ?_
  have hdigit : ∀ m < 16, ∀ n < 16, Nat.digitChar m = Nat.digitChar n → m = n := by decide
  have ha := a.toNat_lt
  have hb := b.toNat_lt
  simp only [List.cons.injEq, and_true] at h
  have hhigh := hdigit _ (by omega) _ (by omega) h.1
  have hlow := hdigit _ (by omega) _ (by omega) h.2
  exact UInt8.toNat_inj.mp (by omega)

theorem toNat_lt_codeSpace (c : Char) : c.toNat < 0x110000 := by
  rcases c.valid with h | ⟨-, h⟩
  · exact Nat.lt_trans h (by decide)
  · exact h

theorem keyedSqlDigest_spellingHmac_injective {store : Store} {s t d : List Char}
    (hs : keyedSqlDigest spellingHmac store profile s = .ok d)
    (ht : keyedSqlDigest spellingHmac store profile t = .ok d) : s = t := by
  cases hkey : store.confirmKey with
  | error => simp [keyedSqlDigest, hkey, bind, Except.bind] at hs
  | ok key =>
      simp only [keyedSqlDigest, spellingHmac, hkey, bind, Except.bind, pure, Except.pure,
        Except.ok.injEq] at hs ht
      have hbytes := hexLower_injective (hs.trans ht.symm)
      have hchars := flatMap_injective (n := 2) (fun _ ↦ rfl) (fun a b h ↦ ?_) hbytes
      · simpa using hchars
      · simp only [List.cons.injEq, and_true, ← UInt8.toNat_inj, UInt8.toNat_ofNat'] at h
        have ha := toNat_lt_codeSpace a
        have hb := toNat_lt_codeSpace b
        exact Char.toNat_inj.mp (by omega)

/-- A run in which a fresh store issues a token for `s₁` and accepts it at once
for a text with the same compaction. -/
def ConfirmedRun.ofCompaction (profile s₁ s₂ : List Char) (kind : WriteStatementKind)
    (hprofile : redact profile = profile) (h : compactSql s₁ = compactSql s₂) : ConfirmedRun spellingHmac profile s₁ s₂ :=
  let id := randomId []
  let sqlDigest := hexLower ((profile ++ '\x1f' :: compactSql s₁).flatMap fun c ↦
    [UInt8.ofNat (c.toNat / 65536), UInt8.ofNat (c.toNat / 256), UInt8.ofNat c.toNat])
  let issued : IssuedConfirmation :=
    { confirmId := id, profile, sqlDigest, statementKind := kind.asToken.toList, issuedAtMs := 0 }
  let before : Store := { confirmKey := .ok [], auditLog := .ok [] }
  let recorded : Store := { before with
    auditLog := .ok [⟨"", 0, .writeDryRun issued⟩] }
  have hissued : issued.redacted = issued := by
    simp only [IssuedConfirmation.redacted, issued, id, sqlDigest, hprofile, redact_asToken,
      redact_of_hexAlphabet fun c ↦ randomId_alphabet,
      redact_of_hexAlphabet fun c ↦ hexLower_alphabet]
  { before
    recorded
    current := recorded
    randomBytes := []
    eventId := ""
    issuedAtMs := 0
    createdAtMs := 0
    now := 0
    ttl := none
    dryRunKind := kind
    confirmKind := kind
    id
    digest_injective := fun _ _ _ ↦ keyedSqlDigest_spellingHmac_injective
    fresh := by simp [before, Store.dryRuns, Store.auditEvents]
    record_eq := by
      change recordDryRun before "" 0 issued = .ok recorded
      simp [recordDryRun, Store.appendAudit, before, recorded, hissued]
    key_eq := rfl
    later := fun _ h _ ↦ h
    verify_eq := by
      have hfind : recorded.findDryRun id = some issued := by
        simp [Store.findDryRun, Store.dryRuns, Store.auditEvents, recorded, issued]
      have hunused : recorded.confirmationConsumedBy id = none := by
        simp [Store.confirmationConsumedBy, Store.auditEvents, recorded]
      have hdigest : keyedSqlDigest spellingHmac recorded profile (compactSql s₂) =
          .ok sqlDigest := by
        rw [← h]
        rfl
      have halive : ¬ toMillis defaultWriteTokenTtlSeconds ≤ 0 := by decide
      simp [verifyConfirmation, stripPrefix?_forRequest_self, hfind, hdigest, hunused, issued,
        halive, id] }

/-! ## Which texts a token tells apart -/

theorem compactSql_verticalTab (sql : List Char) : compactSql ('\x0b' :: sql) = compactSql sql := by
  have hblank : isWhitespace '\x0b' = true := by decide
  simp [compactSql, List.splitOnP_cons_eq_if_modifyHead, hblank]

theorem significant_verticalTab (sql : List Char) :
    (lex ('\x0b' :: sql)).significant = ⟨.symbol, ['\x0b'], 0⟩ ::
      (lex sql).significant.map (fun t ↦ { t with start := 1 + t.start }) := by
  simp only [SqlLex.significant, (lex_verticalTab sql).1, List.filter_cons, List.filter_map]
  rfl

theorem countSegments_shift (content : Bool) (ts : List SqlToken) (n : Nat) :
    SqlLex.countSegments content (ts.map fun t ↦ { t with start := n + t.start }) =
      SqlLex.countSegments content ts := by
  induction ts generalizing content with
  | nil => rfl
  | cons t ts ih => simp only [List.map_cons, SqlLex.countSegments, ih]

/-- Whatever statement a token was issued for, another text with one more token
is accepted in its place: the statement behind a vertical tab. -/
theorem exists_run_with_other_tokens (kind : WriteStatementKind)
    (hprofile : redact profile = profile) (hreliable : (lex s₁).isUnreliable = false)
    (hone : (lex s₁).statementCount = 1)
    (hfirst : ∀ t ∈ (lex s₁).significant.head?, t.kind ≠ .semicolon) :
    ∃ s₂, Nonempty (ConfirmedRun spellingHmac profile s₁ s₂) ∧
      (lex s₂).isUnreliable = false ∧ (lex s₂).statementCount = 1 ∧
      significantContent s₁ ≠ significantContent s₂ := by
  refine ⟨'\x0b' :: s₁, ⟨.ofCompaction profile _ _ kind hprofile (compactSql_verticalTab s₁).symm⟩,
    (lex_verticalTab s₁).2.trans hreliable, ?_, fun heq ↦ ?_⟩
  · rw [SqlLex.statementCount, significant_verticalTab]
    simp only [SqlLex.countSegments, reduceCtorEq, ↓reduceIte, countSegments_shift]
    unfold SqlLex.statementCount at hone
    cases hsig : (lex s₁).significant with
    | nil => simp [hsig, SqlLex.countSegments] at hone
    | cons t ts =>
        have ht : t.kind ≠ .semicolon := hfirst t (by simp [hsig])
        simpa [hsig, SqlLex.countSegments, ht] using hone
  · have hlen := congrArg List.length heq
    simp [significantContent, significant_verticalTab] at hlen

end FrankenSnowflake.Confirmation
