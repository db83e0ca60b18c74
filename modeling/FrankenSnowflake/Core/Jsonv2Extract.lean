import FrankenSnowflake.Core.Jsonv2ScannerCorrect

/-!
# Finding the `data` array

The byte scan for the array of a partition stays in bounds and ends, and which
bytes it finds does not depend on how a copy of the scanner words its errors.
-/

namespace FrankenSnowflake.Jsonv2Scanner

open Foundation Foundation.Json

/-! ## Bounds and termination -/

section Returns

variable {ε : Type} (E : ScanErrors ε)

theorem skipJsonStringFrom_returns {fuel pos : Nat} {s : List UInt8} (hfuel : s.length ≤ fuel) :
    Returns (fun r ↦ ∀ n, r = some n → pos < n ∧ n ≤ pos + s.length)
      (skipJsonStringFrom (ε := ε) fuel pos s) := by
  induction fuel generalizing pos s with
  | zero =>
      obtain rfl : s = [] := List.length_eq_zero_iff.mp (Nat.le_zero.mp hfuel)
      exact .ok (by simp)
  | succ fuel ih =>
      cases s with
      | nil => exact .ok (by simp)
      | cons b s =>
          rw [skipJsonStringFrom]
          split
          next => exact .ok (by simp)
          next rel hfind =>
          obtain ⟨pre, hit, post, hs, -, -, rfl⟩ := findQuoteOrEscape_eq_some hfind
          rw [hs] at hfuel ⊢
          rw [byteAt_append]
          simp only [List.length_append, List.length_cons] at hfuel ⊢
          change Returns _ (if hit = 0x22 then _ else _)
          split
          next =>
            refine .ok fun n hn ↦ ?_
            obtain rfl := Option.some.inj hn
            omega
          next =>
            split
            all_goals
              refine (ih (by simp; omega)).mono ?_
              intro r hr n hn
              have hbound := hr n hn
              simp at hbound
              omega

theorem skipJsonString_returns (s : List UInt8) :
    Returns (fun r ↦ ∀ n, r = some n → 0 < n ∧ n ≤ s.length) (skipJsonString (ε := ε) s) := by
  refine (skipJsonStringFrom_returns (Nat.le_refl _)).mono ?_
  intro r hr n hn
  simpa using hr n hn

theorem arrayLength_returns {fuel depth : Nat} {s : List UInt8} (hfuel : s.length ≤ fuel) :
    Returns (fun n ↦ n ≤ s.length) (arrayLength E fuel depth s) := by
  induction fuel generalizing depth s with
  | zero =>
      obtain rfl : s = [] := List.length_eq_zero_iff.mp (Nat.le_zero.mp hfuel)
      cases depth with
      | zero => exact .ok (Nat.le_refl _)
      | succ depth => exact .fail E _
  | succ fuel ih =>
      cases depth with
      | zero => exact .ok (Nat.zero_le _)
      | succ depth =>
          cases s with
          | nil => exact .fail E _
          | cons b s =>
              have hs : s.length ≤ fuel := by simpa using hfuel
              rw [arrayLength]
              split
              next =>
                refine (skipJsonString_returns s).bind ?_
                intro r hr
                split
                next => exact .fail E _
                next n =>
                  have hn := hr n rfl
                  refine (ih (by simp; omega)).bind ?_
                  intro k hk
                  simp at hk
                  exact .ok (by simp; omega)
              next =>
                split
                next => exact (ih hs).bind fun k hk ↦ .ok (by simp; omega)
                next =>
                  split
                  next => exact (ih hs).bind fun k hk ↦ .ok (by simp; omega)
                  next => exact (ih hs).bind fun k hk ↦ .ok (by simp; omega)

/-- The array found and the rest make up the value's text. -/
theorem dataArray_returns (s : List UInt8) :
    Returns (fun r ↦ skipWs s = r.1 ++ r.2 ∧ r.1.head? = some 0x5b) (dataArray E s) := by
  unfold dataArray
  split
  next => exact .fail E _
  next b rest hskip =>
    split
    next => exact .fail E _
    next hb =>
      refine (arrayLength_returns E (Nat.le_refl _)).bind fun n _ ↦ .ok ⟨?_, ?_⟩
      · simp [hskip]
      · simpa using hb

theorem scanEnvelope_returns {fuel depth : Nat} {s : List UInt8} (hfuel : s.length < fuel) :
    Returns (fun r ↦ r.1.length ≤ s.length ∧ r.1.head? = some 0x5b)
      (scanEnvelope E fuel depth s) := by
  induction fuel generalizing depth s with
  | zero => exact absurd hfuel (Nat.not_lt_zero _)
  | succ fuel ih =>
      cases depth with
      | zero => exact .fail E _
      | succ depth =>
          have hlen := length_skipWs_le s
          rw [scanEnvelope]
          split
          next => exact .fail E _
          next b post hskip =>
          rw [hskip, List.length_cons] at hlen
          split
          next =>
            refine (skipJsonString_returns post).bind ?_
            intro r hr
            split
            next => exact .fail E _
            next n =>
              have hn := hr n rfl
              dsimp only
              split
              next =>
                refine (dataArray_returns E _).mono ?_
                rintro r ⟨hr, hhead⟩
                have hvalue := length_skipWs_le (skipWs (post.drop n)).tail
                have hafter := length_skipWs_le (post.drop n)
                rw [hr, List.length_append, List.length_tail] at hvalue
                rw [List.length_drop] at hafter
                exact ⟨by omega, hhead⟩
              next =>
                have hafter := length_skipWs_le (post.drop n)
                rw [List.length_drop] at hafter
                exact (ih (by omega)).mono fun _ hr ↦ ⟨by omega, hr.2⟩
          next =>
            have hnext : ∀ depth, Returns _ (scanEnvelope E fuel depth post) := fun _ ↦ ih (by omega)
            split
            next => exact (hnext _).mono fun _ hr ↦ ⟨by omega, hr.2⟩
            next =>
              split
              next => exact (hnext _).mono fun _ hr ↦ ⟨by omega, hr.2⟩
              next => exact (hnext _).mono fun _ hr ↦ ⟨by omega, hr.2⟩

theorem extractDataArray_returns (closing : List UInt8 → Option String) (bytes : List UInt8) :
    Returns (fun array ↦ array.length ≤ bytes.length ∧ array.head? = some 0x5b)
      (extractDataArray E closing bytes) := by
  have hlen := length_skipWs_le bytes
  unfold extractDataArray
  split
  next => exact .fail E _
  next b s hskip =>
  rw [hskip] at hlen
  split
  next hb => exact .ok ⟨hlen, by simpa using hb⟩
  next =>
    split
    next =>
      refine (scanEnvelope_returns E (by omega)).bind ?_
      rintro ⟨array, after⟩ ⟨harray, hhead⟩
      dsimp only
      split
      next => exact .fail E _
      next => exact .ok ⟨by simp at hlen harray; omega, hhead⟩
    next => exact .fail E _

/-- A bare array, or the array of an envelope that is closed as it should be. -/
theorem extractDataArray_eq_ok {closing : List UInt8 → Option String} {bytes array : List UInt8} :
    extractDataArray E closing bytes = .ok array ↔
      (skipWs bytes = array ∧ array.head? = some 0x5b) ∨
        ∃ s after, skipWs bytes = 0x7b :: s ∧
          scanEnvelope E (s.length + 2) 1 s = .ok (array, after) ∧ closing after = none := by
  unfold extractDataArray
  cases hskip : skipWs bytes with
  | nil =>
      simp only [fail]
      constructor
      · intro h
        cases h
      · rintro (⟨rfl, h⟩ | ⟨s, after, h, -⟩)
        · cases h
        · cases h
  | cons b s =>
      by_cases hbare : b = 0x5b
      · subst hbare
        simp only [↓reduceIte]
        constructor
        · intro h
          obtain rfl := Except.ok.inj h
          exact Or.inl ⟨rfl, rfl⟩
        · rintro (⟨rfl, -⟩ | ⟨s, after, h, -⟩)
          · rfl
          · cases (List.cons.inj h).1
      · by_cases hobject : b = 0x7b
        · subst hobject
          simp only [if_neg hbare, ↓reduceIte]
          cases henvelope : scanEnvelope E (s.length + 2) 1 s with
          | error e =>
              constructor
              · intro h
                cases h
              · rintro (⟨rfl, h⟩ | ⟨s', after, h, hscan, -⟩)
                · cases h
                · obtain rfl := (List.cons.inj h).2
                  rw [henvelope] at hscan
                  cases hscan
          | ok r =>
              obtain ⟨array', after⟩ := r
              simp only [bind, Except.bind]
              constructor
              · intro h
                split at h
                next => cases h
                next hclosed =>
                  obtain rfl := Except.ok.inj h
                  exact Or.inr ⟨s, after, rfl, henvelope, hclosed⟩
              · rintro (⟨rfl, h⟩ | ⟨s', after', h, hscan, hclosed⟩)
                · cases h
                · obtain rfl := (List.cons.inj h).2
                  rw [henvelope] at hscan
                  obtain ⟨rfl, rfl⟩ := Prod.mk.inj (Except.ok.inj hscan)
                  rw [hclosed]
                  rfl
        · simp only [if_neg hbare, if_neg hobject, fail]
          constructor
          · intro h
            cases h
          · rintro (⟨rfl, h⟩ | ⟨s', after, h, -⟩)
            · exact absurd (Option.some.inj h) hbare
            · exact absurd (List.cons.inj h).1 hobject

end Returns

/-! ## Scans without faults -/

section Checked

variable {ε α : Type} {P : α → Prop}

/-- The result of a scan that has no way to fault. -/
def checked (x : Scan ε α) (h : Returns P x) : Except ε α :=
  match x, h with
  | .ok a, _ => .ok a
  | .error (.error e), _ => .error e

@[simp] theorem checked_eq_ok {x : Scan ε α} {h : Returns P x} {a : α} :
    checked x h = .ok a ↔ x = .ok a := by
  match x, h with
  | .ok b, _ => simp [checked]
  | .error (.error e), _ => simp [checked]

end Checked

/-- `extract_jsonv2_data_array`, which reports every failure as an error. -/
def extractData (bytes : List UInt8) : Except Jsonv2ScanError (List UInt8) :=
  checked (extractJsonv2DataArray bytes) (extractDataArray_returns _ _ _)

theorem decodePartitionRows_returns (bytes : List UInt8) :
    Returns (fun _ ↦ True) (decodePartitionRows bytes) :=
  (extractDataArray_returns _ _ _).bind fun array _ ↦ (decodeArray_returns array).mono fun _ _ ↦ trivial

theorem extractData_eq_ok {bytes raw : List UInt8} :
    extractData bytes = .ok raw ↔ extractJsonv2DataArray bytes = .ok raw :=
  checked_eq_ok

/-- An extracted array is extracted as it stands. -/
theorem extractData_extracted {bytes raw : List UInt8} (h : extractData bytes = .ok raw) :
    extractData raw = .ok raw := by
  rw [extractData_eq_ok] at h ⊢
  have hextract := h
  rw [extractJsonv2DataArray, extractDataArray_eq_ok] at h ⊢
  obtain ⟨-, hhead⟩ := (extractDataArray_returns _ _ bytes).of_eq_ok hextract
  refine Or.inl ⟨skipWs_of_head ?_, hhead⟩
  rw [hhead]
  simp [isWs]

/-- `decode_partition_rows`, which reports every failure as an error. -/
def decodeRows (bytes : List UInt8) :
    Except Jsonv2ScanError (List (List (Option (List Char)))) :=
  checked (decodePartitionRows bytes) (decodePartitionRows_returns bytes)

theorem decodeRows_eq_ok {bytes : List UInt8} {rows : List (List (Option (List Char)))} :
    decodeRows bytes = .ok rows ↔
      ∃ raw, extractData bytes = .ok raw ∧ Text (RowsText lenient) raw rows := by
  rw [decodeRows, checked_eq_ok, decodePartitionRows]
  simp only [extractData_eq_ok, ← decodeArray_eq_ok]
  cases extractJsonv2DataArray bytes with
  | error e => simp [bind, Except.bind]
  | ok raw => simp [bind, Except.bind]

/-- The rows of an extracted array are those of the bytes it was taken from. -/
theorem decodeRows_extracted {bytes raw : List UInt8} (h : extractData bytes = .ok raw)
    {rows : List (List (Option (List Char)))} :
    decodeRows raw = .ok rows ↔ decodeRows bytes = .ok rows := by
  simp only [decodeRows_eq_ok, extractData_extracted h, h]

/-! ## Independence of the errors -/

section SameOk

variable {ε ε' α β : Type}

/-- Two scans return the same values. -/
def SameOk (x : Scan ε α) (y : Scan ε' α) : Prop := ∀ a, x = .ok a ↔ y = .ok a

theorem SameOk.ok (a : α) : SameOk (.ok a : Scan ε α) (.ok a : Scan ε' α) := by
  intro b
  simp

theorem SameOk.error (e : Fault ε) (e' : Fault ε') : SameOk (α := α) (.error e) (.error e') := by
  intro b
  simp

theorem SameOk.fail (E : ScanErrors ε) (E' : ScanErrors ε') (reason : String) :
    SameOk (α := α) (fail E reason) (fail E' reason) :=
  .error _ _

theorem SameOk.bind {x : Scan ε α} {y : Scan ε' α} {f : α → Scan ε β} {g : α → Scan ε' β}
    (h : SameOk x y) (hf : ∀ a, SameOk (f a) (g a)) : SameOk (x >>= f) (y >>= g) := by
  cases x with
  | ok a =>
      obtain rfl : y = .ok a := (h a).mp rfl
      exact hf a
  | error e =>
      cases y with
      | ok a => exact absurd ((h a).mpr rfl) (by simp)
      | error e' => exact .error e e'

theorem skipJsonStringFrom_sameOk (fuel pos : Nat) (s : List UInt8) :
    SameOk (skipJsonStringFrom (ε := ε) fuel pos s) (skipJsonStringFrom (ε := ε') fuel pos s) := by
  induction fuel generalizing pos s with
  | zero =>
      cases s with
      | nil => exact .ok _
      | cons b s => exact .error _ _
  | succ fuel ih =>
      cases s with
      | nil => exact .ok _
      | cons b s =>
          rw [skipJsonStringFrom, skipJsonStringFrom]
          split
          next => exact .ok _
          next rel hfind =>
            obtain ⟨pre, hit, post, hs, -, -, rfl⟩ := findQuoteOrEscape_eq_some hfind
            rw [hs]
            simp only [byteAt_append]
            refine (SameOk.ok hit).bind fun hit ↦ ?_
            split
            next => exact .ok _
            next =>
              split
              next => exact ih _ _
              next => exact ih _ _

variable (E : ScanErrors ε) (E' : ScanErrors ε')

theorem arrayLength_sameOk (fuel depth : Nat) (s : List UInt8) :
    SameOk (arrayLength E fuel depth s) (arrayLength E' fuel depth s) := by
  induction fuel generalizing depth s with
  | zero =>
      cases depth with
      | zero =>
          simp only [arrayLength]
          exact .ok _
      | succ depth =>
          cases s with
          | nil => exact .fail E E' _
          | cons b s => exact .error _ _
  | succ fuel ih =>
      cases depth with
      | zero => exact .ok _
      | succ depth =>
          cases s with
          | nil => exact .fail E E' _
          | cons b s =>
              rw [arrayLength, arrayLength]
              split
              next =>
                refine (skipJsonStringFrom_sameOk _ _ _).bind fun r ↦ ?_
                split
                next => exact .fail E E' _
                next => exact (ih _ _).bind fun k ↦ .ok _
              next =>
                split
                next => exact (ih _ _).bind fun k ↦ .ok _
                next =>
                  split
                  next => exact (ih _ _).bind fun k ↦ .ok _
                  next => exact (ih _ _).bind fun k ↦ .ok _

theorem dataArray_sameOk (s : List UInt8) : SameOk (dataArray E s) (dataArray E' s) := by
  unfold dataArray
  split
  next => exact .fail E E' _
  next =>
    split
    next => exact .fail E E' _
    next => exact (arrayLength_sameOk E E' _ _ _).bind fun n ↦ .ok _

theorem scanEnvelope_sameOk (fuel depth : Nat) (s : List UInt8) :
    SameOk (scanEnvelope E fuel depth s) (scanEnvelope E' fuel depth s) := by
  induction fuel generalizing depth s with
  | zero => exact .error _ _
  | succ fuel ih =>
      cases depth with
      | zero => exact .fail E E' _
      | succ depth =>
          rw [scanEnvelope, scanEnvelope]
          split
          next => exact .fail E E' _
          next b s _ =>
            split
            next =>
              refine (skipJsonStringFrom_sameOk _ _ _).bind fun r ↦ ?_
              split
              next => exact .fail E E' _
              next =>
                dsimp only
                split
                next => exact dataArray_sameOk E E' _
                next => exact ih _ _
            next =>
              split
              next => exact ih _ _
              next =>
                split
                next => exact ih _ _
                next => exact ih _ _

theorem extractDataArray_sameOk (closing : List UInt8 → Option String) (bytes : List UInt8) :
    SameOk (extractDataArray E closing bytes) (extractDataArray E' closing bytes) := by
  unfold extractDataArray
  split
  next => exact .fail E E' _
  next b s _ =>
    split
    next => exact .ok _
    next =>
      split
      next =>
        refine (scanEnvelope_sameOk E E' _ _ _).bind fun r ↦ ?_
        dsimp only
        split
        next => exact .fail E E' _
        next => exact .ok _
      next => exact .fail E E' _

end SameOk

end FrankenSnowflake.Jsonv2Scanner
