import FrankenSnowflake.Core.Jsonv2Extract
import FrankenSnowflake.Foundation.JsonObject

/-!
# The `data` member of an object

On a JSON object the byte scan passes over every member whose key is not
spelled `data` and takes the array of the first that is.  A key that only reads
as `data`, spelled with an escape, is passed over too.
-/

namespace FrankenSnowflake.Jsonv2Scanner

open Foundation Foundation.Json

/-! ## Strings -/

/-- The first quote or backslash of a string. -/
theorem quoted_hit {t : List UInt8} (ht : Quoted t) (rest : List UInt8) :
    ∃ r b s, t ++ 0x22 :: rest = r ++ b :: s ∧ Plain r ∧
      (b = 0x22 ∧ s = rest ∧ t = r ∨
        ∃ e t', b = 0x5c ∧ s = e :: (t' ++ 0x22 :: rest) ∧ Quoted t' ∧ t = r ++ 0x5c :: e :: t') := by
  induction ht with
  | nil => exact ⟨[], 0x22, rest, rfl, by simp [Plain], Or.inl ⟨rfl, rfl, rfl⟩⟩
  | @raw b t hquote hescape ht ih =>
      obtain ⟨r, x, s, heq, hr, hcase⟩ := ih
      refine ⟨b :: r, x, s, by rw [List.cons_append, heq, List.cons_append], ?_, ?_⟩
      · exact List.forall_mem_cons.mpr ⟨by simp [isQuoteOrEscape, hquote, hescape], hr⟩
      · rcases hcase with ⟨rfl, rfl, rfl⟩ | ⟨e, t', rfl, rfl, ht', rfl⟩
        · exact Or.inl ⟨rfl, rfl, rfl⟩
        · exact Or.inr ⟨e, t', rfl, rfl, ht', rfl⟩
  | @escape b t ht ih =>
      exact ⟨[], 0x5c, b :: (t ++ 0x22 :: rest), rfl, by simp [Plain],
        Or.inr ⟨b, t, rfl, rfl, ht, rfl⟩⟩

/-- A string is skipped to behind its closing quote. -/
theorem skipJsonStringFrom_quoted {ε : Type} {fuel pos : Nat} {t : List UInt8} (ht : Quoted t)
    (hfuel : t.length < fuel) (rest : List UInt8) :
    skipJsonStringFrom (ε := ε) fuel pos (t ++ 0x22 :: rest) = .ok (some (pos + t.length + 1)) := by
  induction fuel generalizing pos t with
  | zero => exact absurd hfuel (Nat.not_lt_zero _)
  | succ fuel ih =>
      obtain ⟨r, b, s, heq, hr, hcase⟩ := quoted_hit ht rest
      obtain ⟨x, xs, hcons⟩ : ∃ x xs, t ++ 0x22 :: rest = x :: xs := by
        cases t with
        | nil => exact ⟨_, _, rfl⟩
        | cons x t => exact ⟨_, _, rfl⟩
      rw [hcons, skipJsonStringFrom, ← hcons, heq]
      rcases hcase with ⟨rfl, rfl, rfl⟩ | ⟨e, t', rfl, rfl, ht', rfl⟩
      · rw [findQuoteOrEscape_append hr (by decide)]
        simp [byteAt_append, bind, Except.bind]
      · rw [findQuoteOrEscape_append hr (by decide)]
        have hdrop : (r ++ 0x5c :: e :: (t' ++ 0x22 :: rest)).drop (r.length + 2) =
            t' ++ 0x22 :: rest := by
          rw [← List.drop_drop, List.drop_left]
          rfl
        have hnext : skipJsonStringFrom (ε := ε) fuel (pos + r.length + 2) (t' ++ 0x22 :: rest) =
            .ok (some (pos + r.length + 2 + t'.length + 1)) := ih ht' (by simp at hfuel; omega)
        simp only [byteAt_append, bind, Except.bind, hdrop, hnext]
        simp
        omega

theorem skipJsonString_quoted {ε : Type} {t : List UInt8} (ht : Quoted t) (rest : List UInt8) :
    skipJsonString (ε := ε) (t ++ 0x22 :: rest) = .ok (some (t.length + 1)) := by
  rw [skipJsonString, skipJsonStringFrom_quoted ht (by simp)]
  simp

/-! ## Brackets

With fuel for every byte, the bracket count is a function of the depth and the
bytes. -/

section Brackets

variable {ε : Type} (E : ScanErrors ε)

theorem arrayLength_fuel {fuel fuel' depth : Nat} {s : List UInt8} (h : s.length ≤ fuel)
    (h' : s.length ≤ fuel') : arrayLength E fuel depth s = arrayLength E fuel' depth s := by
  induction fuel generalizing fuel' depth s with
  | zero =>
      obtain rfl : s = [] := List.length_eq_zero_iff.mp (Nat.le_zero.mp h)
      cases depth with
      | zero => simp only [arrayLength]
      | succ depth => simp only [arrayLength]
  | succ fuel ih =>
      cases s with
      | nil =>
          cases depth with
          | zero => simp only [arrayLength]
          | succ depth => simp only [arrayLength]
      | cons b s =>
          obtain ⟨fuel', rfl⟩ : ∃ k, fuel' = k + 1 := ⟨fuel' - 1, by simp at h'; omega⟩
          rw [List.length_cons] at h h'
          cases depth with
          | zero => simp only [arrayLength]
          | succ depth =>
              have hrest : ∀ d n, arrayLength E fuel d (s.drop n) =
                  arrayLength E fuel' d (s.drop n) :=
                fun d n ↦ ih (by simp; omega) (by simp; omega)
              have hs : ∀ d, arrayLength E fuel d s = arrayLength E fuel' d s :=
                fun d ↦ ih (by omega) (by omega)
              simp only [arrayLength, hrest, hs]

/-- The bracket count with all the fuel it needs. -/
def brackets (depth : Nat) (s : List UInt8) : Scan ε Nat := arrayLength E s.length depth s

theorem brackets_zero (s : List UInt8) : brackets E 0 s = .ok 0 := by
  simp only [brackets, arrayLength]

theorem brackets_cons {depth n : Nat} {b : UInt8} {s : List UInt8} (hquote : b ≠ 0x22)
    (h : brackets E (if b = 0x5b then depth + 2 else if b = 0x5d then depth else depth + 1) s =
      .ok n) : brackets E (depth + 1) (b :: s) = .ok (n + 1) := by
  unfold brackets at h ⊢
  rw [List.length_cons, arrayLength, if_neg hquote]
  split
  next hopen =>
    rw [if_pos hopen] at h
    simp [h, bind, Except.bind, pure, Except.pure, Nat.add_comm]
  next hopen =>
    rw [if_neg hopen] at h
    split
    next hclose =>
      rw [if_pos hclose] at h
      simp [h, bind, Except.bind, pure, Except.pure, Nat.add_comm]
    next hclose =>
      rw [if_neg hclose] at h
      simp [h, bind, Except.bind, pure, Except.pure, Nat.add_comm]

theorem brackets_quoted {depth n : Nat} {t rest : List UInt8} (ht : Quoted t)
    (h : brackets E (depth + 1) rest = .ok n) :
    brackets E (depth + 1) (0x22 :: (t ++ 0x22 :: rest)) = .ok (n + (t.length + 2)) := by
  have hdrop : (t ++ 0x22 :: rest).drop (t.length + 1) = rest := drop_length_succ t rest 0x22
  unfold brackets at h ⊢
  have hlen : rest.length ≤ (t ++ 0x22 :: rest).length := by simp; omega
  rw [arrayLength_fuel E (Nat.le_refl _) hlen] at h
  rw [List.length_cons, arrayLength, if_pos rfl, skipJsonString_quoted ht]
  simp only [bind, Except.bind, hdrop, h, pure, Except.pure]
  congr 1
  omega

/-- Bytes that are neither quotes nor brackets are counted and no more. -/
theorem brackets_neutral {depth n : Nat} {t rest : List UInt8}
    (ht : ∀ b ∈ t, b ≠ 0x22 ∧ b ≠ 0x5b ∧ b ≠ 0x5d) (h : brackets E (depth + 1) rest = .ok n) :
    brackets E (depth + 1) (t ++ rest) = .ok (n + t.length) := by
  induction t with
  | nil => exact h
  | cons b t ih =>
      obtain ⟨⟨hquote, hopen, hclose⟩, ht⟩ := List.forall_mem_cons.mp ht
      rw [List.cons_append, brackets_cons E hquote (n := n + t.length)]
      · rw [List.length_cons, Nat.add_assoc]
      · rw [if_neg hopen, if_neg hclose]
        exact ih ht

theorem neutral_ws {w : List UInt8} (hw : Ws w) : ∀ b ∈ w, b ≠ 0x22 ∧ b ≠ 0x5b ∧ b ≠ 0x5d := by
  intro b hb
  have hws := hw b hb
  refine ⟨?_, ?_, ?_⟩
  all_goals
    rintro rfl
    exact absurd hws (by decide)

theorem neutral_scalar {t : List UInt8} (ht : ∀ b ∈ t, isScalarByte b) :
    ∀ b ∈ t, b ≠ 0x22 ∧ b ≠ 0x5b ∧ b ≠ 0x5d := by
  intro b hb
  have hscalar := ht b hb
  refine ⟨?_, ?_, ?_⟩
  all_goals
    rintro rfl
    exact absurd hscalar (by decide)

/-- A value, and what it is made of, is counted as a whole. -/
theorem brackets_derives {r : Rule} {t : List UInt8} (ht : Derives r t) {depth n : Nat}
    {rest : List UInt8} (h : brackets E (depth + 1) rest = .ok n) :
    brackets E (depth + 1) (t ++ rest) = .ok (n + t.length) := by
  have hcomma : ∀ {d k : Nat} {s : List UInt8}, brackets E (d + 1) s = .ok k →
      brackets E (d + 1) (0x2c :: s) = .ok (k + 1) := fun h ↦ brackets_cons E (by decide) h
  have hcolon : ∀ {d k : Nat} {s : List UInt8}, brackets E (d + 1) s = .ok k →
      brackets E (d + 1) (0x3a :: s) = .ok (k + 1) := fun h ↦ brackets_cons E (by decide) h
  have hbrace : ∀ {d k : Nat} {b : UInt8} {s : List UInt8}, b = 0x7b ∨ b = 0x7d →
      brackets E (d + 1) s = .ok k → brackets E (d + 1) (b :: s) = .ok (k + 1) := by
    rintro d k b s (rfl | rfl) h
    · exact brackets_cons E (by decide) h
    · exact brackets_cons E (by decide) h
  have hws : ∀ {d k : Nat} {w s : List UInt8}, Ws w → brackets E (d + 1) s = .ok k →
      brackets E (d + 1) (w ++ s) = .ok (k + w.length) :=
    fun hw h ↦ brackets_neutral E (neutral_ws hw) h
  induction ht generalizing depth n rest with
  | @string t ht =>
      have hquoted := brackets_quoted E ht h
      simpa using hquoted
  | scalar hne ht => exact brackets_neutral E (neutral_scalar ht) h
  | @emptyArray w hw =>
      have hclose : brackets E (depth + 2) (0x5d :: rest) = .ok (n + 1) :=
        brackets_cons E (by decide) h
      have hopen := brackets_cons E (b := 0x5b) (by decide) (hws hw hclose)
      simp only [List.cons_append, List.append_assoc, List.nil_append, hopen]
      simp
      omega
  | @array w t hw ht ih =>
      have hclose : brackets E (depth + 2) (0x5d :: rest) = .ok (n + 1) :=
        brackets_cons E (by decide) h
      have hopen := brackets_cons E (b := 0x5b) (by decide) (hws hw (ih hclose))
      simp only [List.cons_append, List.append_assoc, List.nil_append, hopen]
      simp
      omega
  | @emptyObject w hw =>
      have hopen := hbrace (b := 0x7b) (Or.inl rfl) (hws hw (hbrace (b := 0x7d) (Or.inr rfl) h))
      simp only [List.cons_append, List.append_assoc, List.nil_append, hopen]
      simp
      omega
  | @object w t hw ht ih =>
      have hopen :=
        hbrace (b := 0x7b) (Or.inl rfl) (hws hw (ih (hbrace (b := 0x7d) (Or.inr rfl) h)))
      simp only [List.cons_append, List.append_assoc, List.nil_append, hopen]
      simp
      omega
  | @lastElement t w ht hw ih =>
      have hall := ih (hws hw h)
      simp only [List.append_assoc, hall]
      simp
      omega
  | @elements t w w' ts ht hw hw' hts ih ihs =>
      have hall := ih (hws hw (hcomma (hws hw' (ihs h))))
      simp only [List.append_assoc, List.cons_append, hall]
      simp
      omega
  | @member k w w' t hk hw hw' ht ih =>
      have hall := brackets_quoted E hk (hws hw (hcolon (hws hw' (ih h))))
      simp only [List.append_assoc, List.cons_append, hall]
      simp
      omega
  | @lastMember t w ht hw ih =>
      have hall := ih (hws hw h)
      simp only [List.append_assoc, hall]
      simp
      omega
  | @members t w w' ts ht hw hw' hts ih ihs =>
      have hall := ih (hws hw (hcomma (hws hw' (ihs h))))
      simp only [List.append_assoc, List.cons_append, hall]
      simp
      omega

/-- The array of the `data` key is found as it is spelled. -/
theorem dataArray_derives {w v rest : List UInt8} (hw : Ws w) (hv : Derives .value v)
    (harray : v.head? = some 0x5b) : dataArray E (w ++ (v ++ rest)) = .ok (v, rest) := by
  obtain ⟨inner, rfl⟩ := List.head?_eq_some_iff.mp harray
  have hcount : brackets E 1 (inner ++ rest) = .ok inner.length := by
    have hclose : brackets E 1 (0x5d :: rest) = .ok 1 :=
      brackets_cons E (by decide) (brackets_zero E rest)
    cases hv with
    | scalar hne ht => exact absurd (ht 0x5b (by simp)) (by decide)
    | @emptyArray w hw =>
        have hinner := brackets_neutral E (neutral_ws hw) hclose
        simp only [List.append_assoc, List.cons_append, List.nil_append, hinner]
        simp [Nat.add_comm]
    | @array w t hw ht =>
        have hinner := brackets_neutral E (neutral_ws hw) (brackets_derives E ht hclose)
        simp only [List.append_assoc, List.cons_append, List.nil_append, hinner]
        simp
        omega
  rw [brackets, List.length_append] at hcount
  rw [dataArray, List.cons_append, skipWs_append_cons hw (by decide)]
  simp [hcount, bind, Except.bind, pure, Except.pure]

end Brackets

/-! ## Braces -/

section Braces

variable {ε : Type} (E : ScanErrors ε)

theorem scanEnvelope_fuel {fuel fuel' depth : Nat} {s : List UInt8} (h : s.length < fuel)
    (h' : s.length < fuel') : scanEnvelope E fuel depth s = scanEnvelope E fuel' depth s := by
  induction fuel generalizing fuel' depth s with
  | zero => exact absurd h (Nat.not_lt_zero _)
  | succ fuel ih =>
      obtain ⟨fuel', rfl⟩ : ∃ k, fuel' = k + 1 := ⟨fuel' - 1, by omega⟩
      cases depth with
      | zero => rfl
      | succ depth =>
          have hlen := length_skipWs_le s
          cases hskip : skipWs s with
          | nil => simp only [scanEnvelope, hskip]
          | cons b post =>
              rw [hskip, List.length_cons] at hlen
              have hpost : ∀ d, scanEnvelope E fuel d post = scanEnvelope E fuel' d post :=
                fun d ↦ ih (by omega) (by omega)
              have hafter : ∀ d n, scanEnvelope E fuel d (skipWs (post.drop n)) =
                  scanEnvelope E fuel' d (skipWs (post.drop n)) := by
                intro d n
                have hle := length_skipWs_le (post.drop n)
                rw [List.length_drop] at hle
                exact ih (by omega) (by omega)
              simp only [scanEnvelope, hskip, hpost, hafter]

/-- The envelope loop with all the fuel it needs. -/
def envelope (depth : Nat) (s : List UInt8) : Scan ε (List UInt8 × List UInt8) :=
  scanEnvelope E (s.length + 1) depth s

theorem envelope_of_skipWs {depth : Nat} {s s' : List UInt8} (h : skipWs s = skipWs s') :
    envelope E (depth + 1) s = envelope E (depth + 1) s' := by
  have hfuel := Nat.le_max_left s.length s'.length
  have hfuel' := Nat.le_max_right s.length s'.length
  unfold envelope
  rw [scanEnvelope_fuel E (Nat.lt_succ_self _) (Nat.lt_succ_of_le hfuel),
    scanEnvelope_fuel E (Nat.lt_succ_self _) (Nat.lt_succ_of_le hfuel')]
  simp only [scanEnvelope, h]

theorem envelope_ws {depth : Nat} {w s : List UInt8} (hw : Ws w) :
    envelope E (depth + 1) (w ++ s) = envelope E (depth + 1) s :=
  envelope_of_skipWs E (skipWs_append hw)

theorem envelope_cons {depth : Nat} {b : UInt8} {s : List UInt8} (hquote : b ≠ 0x22)
    (hws : isWs b = false) : envelope E (depth + 1) (b :: s) =
      envelope E (if b = 0x7b then depth + 2 else if b = 0x7d then depth else depth + 1) s := by
  unfold envelope
  rw [scanEnvelope, skipWs_of_head (by simpa using hws)]
  dsimp only [List.length_cons]
  rw [if_neg hquote]
  split
  next => rfl
  next =>
    split
    next => rfl
    next => rfl

/-- The spelling of the `data` key. -/
def dataKey : List UInt8 := [0x64, 0x61, 0x74, 0x61]

/-- A string is passed over, unless it is the `data` key of the outer object. -/
theorem envelope_quoted {depth : Nat} {t rest : List UInt8} (ht : Quoted t) :
    envelope E (depth + 1) (0x22 :: (t ++ 0x22 :: rest)) =
      if depth = 0 ∧ t = dataKey ∧ (skipWs rest).head? = some 0x3a then
        dataArray E (skipWs rest).tail
      else envelope E (depth + 1) rest := by
  have hdrop : (t ++ 0x22 :: rest).drop (t.length + 1) = rest := drop_length_succ t rest 0x22
  have htake : (t ++ 0x22 :: rest).take (t.length + 1 - 1) = t := by simp
  rw [envelope, scanEnvelope, skipWs_of_head (by simp [isWs])]
  dsimp only
  rw [if_pos rfl, skipJsonString_quoted ht]
  simp only [bind, Except.bind, hdrop, htake]
  change (if depth = 0 ∧ t = dataKey ∧ (skipWs rest).head? = some 0x3a then _ else _) = _
  split
  next => rfl
  next =>
    have hle := length_skipWs_le rest
    rw [scanEnvelope_fuel E (s := skipWs rest) (by simp; omega) (Nat.lt_succ_self _)]
    exact envelope_of_skipWs E (skipWs_skipWs rest)

/-- Bytes that are neither whitespace, quotes nor braces are passed over. -/
theorem envelope_scalar {depth : Nat} {t rest : List UInt8} (ht : ∀ b ∈ t, isScalarByte b) :
    envelope E (depth + 1) (t ++ rest) = envelope E (depth + 1) rest := by
  induction t with
  | nil => rfl
  | cons b t ih =>
      obtain ⟨hb, ht⟩ := List.forall_mem_cons.mp ht
      simp only [isScalarByte, Bool.and_eq_true, decide_eq_true_eq, Bool.not_eq_true'] at hb
      rw [List.cons_append, envelope_cons E hb.1.1.1.1.1.1.2 hb.1.1.1.1.1.1.1,
        if_neg hb.1.1.1.2, if_neg hb.1.1.2, ih ht]

/-- A value, and what it is made of, is passed over, unless a colon follows it in
the outer object. -/
theorem envelope_derives {r : Rule} {t : List UInt8} (ht : Derives r t) {depth : Nat}
    {rest : List UInt8} (h : depth = 0 → (r = .value ∨ r = .elements) ∧
      (skipWs rest).head? ≠ some 0x3a) :
    envelope E (depth + 1) (t ++ rest) = envelope E (depth + 1) rest := by
  have hbyte : ∀ {d : Nat} {b : UInt8} {s : List UInt8}, b ∈ [0x5b, 0x5d, 0x2c, 0x3a] →
      envelope E (d + 1) (b :: s) = envelope E (d + 1) s := by
    intro d b s hb
    simp only [List.mem_cons, List.not_mem_nil, or_false] at hb
    rcases hb with rfl | rfl | rfl | rfl
    all_goals exact envelope_cons E (by decide) (by decide)
  have hopen : ∀ {d : Nat} {s : List UInt8},
      envelope E (d + 1) (0x7b :: s) = envelope E (d + 2) s := envelope_cons E (by decide) (by decide)
  have hclose : ∀ {d : Nat} {s : List UInt8},
      envelope E (d + 1) (0x7d :: s) = envelope E d s := envelope_cons E (by decide) (by decide)
  -- the byte behind a value is not a colon
  have hnext : ∀ {w s : List UInt8} {b : UInt8}, Ws w → isWs b = false → b ≠ 0x3a →
      (skipWs (w ++ b :: s)).head? ≠ some 0x3a := by
    intro w s b hw hb hne
    rw [skipWs_append_cons hw hb]
    simpa using hne
  induction ht generalizing depth rest with
  | @string t ht =>
      rw [List.cons_append, List.append_assoc, List.singleton_append, envelope_quoted E ht,
        if_neg]
      rintro ⟨hdepth, -, hcolon⟩
      exact (h hdepth).2 hcolon
  | scalar hne ht => exact envelope_scalar E ht
  | emptyArray hw =>
      rw [List.cons_append, List.append_assoc, List.singleton_append, hbyte (by simp),
        envelope_ws E hw, hbyte (by simp)]
  | array hw ht ih =>
      rw [List.cons_append, List.append_assoc, List.append_assoc, List.singleton_append,
        hbyte (by simp), envelope_ws E hw, ih, hbyte (by simp)]
      exact fun _ ↦ ⟨Or.inr rfl, hnext Ws.nil (by decide) (by decide)⟩
  | emptyObject hw =>
      rw [List.cons_append, List.append_assoc, List.singleton_append, hopen, envelope_ws E hw,
        hclose]
  | object hw ht ih =>
      rw [List.cons_append, List.append_assoc, List.append_assoc, List.singleton_append, hopen,
        envelope_ws E hw, ih (fun h ↦ absurd h (Nat.succ_ne_zero _)), hclose]
  | lastElement ht hw ih =>
      rw [List.append_assoc, ih, envelope_ws E hw]
      intro hdepth
      rw [skipWs_append hw]
      exact ⟨Or.inl rfl, (h hdepth).2⟩
  | elements ht hw hw' hts ih ihs =>
      rw [List.append_assoc, List.append_assoc, List.cons_append, List.append_assoc, ih,
        envelope_ws E hw, hbyte (by simp), envelope_ws E hw', ihs h]
      exact fun _ ↦ ⟨Or.inl rfl, hnext hw (by decide) (by decide)⟩
  | member hk hw hw' ht ih =>
      have hdepth : depth ≠ 0 := fun hzero ↦ by simpa using (h hzero).1
      rw [List.cons_append, List.append_assoc, List.cons_append, List.append_assoc,
        List.cons_append, List.append_assoc, envelope_quoted E hk,
        if_neg fun hcond ↦ hdepth hcond.1, envelope_ws E hw, hbyte (by simp), envelope_ws E hw',
        ih fun hzero ↦ absurd hzero hdepth]
  | lastMember ht hw ih =>
      have hdepth : depth ≠ 0 := fun hzero ↦ by simpa using (h hzero).1
      rw [List.append_assoc, ih fun hzero ↦ absurd hzero hdepth, envelope_ws E hw]
  | members ht hw hw' hts ih ihs =>
      have hdepth : depth ≠ 0 := fun hzero ↦ by simpa using (h hzero).1
      rw [List.append_assoc, List.append_assoc, List.cons_append, List.append_assoc,
        ih fun hzero ↦ absurd hzero hdepth, envelope_ws E hw, hbyte (by simp), envelope_ws E hw',
        ihs fun hzero ↦ absurd hzero hdepth]

/-! ## Members -/

/-- A member whose key is not spelled `data` is passed over. -/
theorem envelope_member {t rest : List UInt8} {m : Member} (ht : MemberText t m)
    (hkey : m.key ≠ dataKey) (hrest : (skipWs rest).head? ≠ some 0x3a) :
    envelope E 1 (t ++ rest) = envelope E 1 rest := by
  cases ht with
  | @mk k w w' v hk hw hw' hv =>
      rw [List.cons_append, List.append_assoc, List.cons_append, List.append_assoc,
        List.cons_append, List.append_assoc, envelope_quoted E hk,
        if_neg fun hcond ↦ hkey hcond.2.1, envelope_ws E hw,
        envelope_cons E (by decide) (by decide), if_neg (by decide), if_neg (by decide),
        envelope_ws E hw', envelope_derives E hv fun _ ↦ ⟨Or.inl rfl, hrest⟩]

/-- The array of the member that is spelled `data` is taken. -/
theorem envelope_dataMember {t rest : List UInt8} {m : Member} (ht : MemberText t m)
    (hkey : m.key = dataKey) (harray : m.value.head? = some 0x5b) :
    envelope E 1 (t ++ rest) = .ok (m.value, rest) := by
  cases ht with
  | @mk k w w' v hk hw hw' hv =>
      have hcolon : skipWs (w ++ 0x3a :: (w' ++ (v ++ rest))) = 0x3a :: (w' ++ (v ++ rest)) :=
        skipWs_append_cons hw (by decide)
      rw [List.cons_append, List.append_assoc, List.cons_append, List.append_assoc,
        List.cons_append, List.append_assoc, envelope_quoted E hk, hcolon, if_pos ⟨rfl, hkey, rfl⟩]
      exact dataArray_derives E hw' hv harray

/-- Members of which none is spelled `data` are passed over. -/
theorem envelope_members {t rest : List UInt8} {ms : List Member} (ht : Elements MemberText t ms)
    (hkeys : ∀ m ∈ ms, m.key ≠ dataKey) (hrest : (skipWs rest).head? ≠ some 0x3a) :
    envelope E 1 (t ++ rest) = envelope E 1 rest := by
  induction ht with
  | one ht hw =>
      rw [List.append_assoc, envelope_member E ht (hkeys _ (by simp)), envelope_ws E hw]
      rwa [skipWs_append hw]
  | cons ht hw hw' hts ih =>
      obtain ⟨hkey, hkeys⟩ := List.forall_mem_cons.mp hkeys
      rw [List.append_assoc, List.append_assoc, List.cons_append, List.append_assoc,
        envelope_member E ht hkey, envelope_ws E hw, envelope_cons E (by decide) (by decide),
        if_neg (by decide), if_neg (by decide), envelope_ws E hw', ih hkeys]
      rw [skipWs_append_cons hw (by decide)]
      simp

/-- The first member that is spelled `data` is taken, and a comma or the end of
the object follows. -/
theorem envelope_find {t rest : List UInt8} {ms : List Member} (ht : Elements MemberText t ms)
    {m : Member} (hm : ms.find? (·.key = dataKey) = some m) (harray : m.value.head? = some 0x5b) :
    ∃ after, envelope E 1 (t ++ 0x7d :: rest) = .ok (m.value, after) ∧
      closedByObject after = none := by
  induction ht with
  | @one t w m' ht hw =>
      rw [List.find?_singleton] at hm
      split at hm
      next hkey =>
        obtain rfl := Option.some.inj hm
        rw [List.append_assoc]
        refine ⟨_, envelope_dataMember E ht (of_decide_eq_true hkey) harray, ?_⟩
        rw [closedByObject, skipWs_append_cons hw (by decide)]
        rfl
      next => cases hm
  | @cons t w w' ts m' ms ht hw hw' hts ih =>
      rw [List.find?_cons] at hm
      rw [List.append_assoc, List.append_assoc, List.cons_append, List.append_assoc]
      split at hm
      next hkey =>
        obtain rfl := Option.some.inj hm
        refine ⟨_, envelope_dataMember E ht (of_decide_eq_true hkey) harray, ?_⟩
        rw [closedByObject, skipWs_append_cons hw (by decide)]
        rfl
      next hkey =>
        obtain ⟨after, hfound, hclosed⟩ := ih hm
        refine ⟨after, ?_, hclosed⟩
        rw [envelope_member E ht (of_decide_eq_false hkey), envelope_ws E hw,
          envelope_cons E (by decide) (by decide), if_neg (by decide), if_neg (by decide),
          envelope_ws E hw', hfound]
        rw [skipWs_append_cons hw (by decide)]
        simp

end Braces

/-! ## Extraction from an object -/

theorem extractData_of_envelope {body s : List UInt8} (hs : skipWs body = 0x7b :: s)
    {raw : List UInt8} : extractData body = .ok raw ↔
      ∃ after, envelope coreErrors 1 s = .ok (raw, after) ∧ closedByObject after = none := by
  have hfuel : envelope coreErrors 1 s = scanEnvelope coreErrors (s.length + 2) 1 s :=
    scanEnvelope_fuel coreErrors (Nat.lt_succ_self s.length) (show s.length < s.length + 2 by omega)
  rw [extractData_eq_ok, extractJsonv2DataArray, show ScanErrors.mapped id = coreErrors from rfl,
    extractDataArray_eq_ok, hs]
  constructor
  · rintro (⟨rfl, h⟩ | ⟨s', after, heq, hscan, hclosed⟩)
    · cases h
    · obtain rfl := (List.cons.inj heq).2
      exact ⟨after, hfuel.trans hscan, hclosed⟩
  · rintro ⟨after, hscan, hclosed⟩
    exact Or.inr ⟨s, after, rfl, hfuel.symm.trans hscan, hclosed⟩

/-- The array of the first member spelled `data` is extracted. -/
theorem extractData_object {body : List UInt8} {ms : List Member} (h : Text ObjectText body ms)
    {m : Member} (hm : ms.find? (·.key = dataKey) = some m) (harray : m.value.head? = some 0x5b) :
    extractData body = .ok m.value := by
  obtain ⟨w₀, t, w₁, hw₀, ht, hw₁, rfl⟩ := h
  have hskip := ht.starts.skipWs (t := w₁) hw₀
  cases ht with
  | empty => cases hm
  | members hw hts =>
      rw [List.cons_append] at hskip
      refine (extractData_of_envelope hskip).mpr ?_
      rw [List.append_assoc, List.append_assoc, List.singleton_append,
        envelope_ws coreErrors hw]
      exact envelope_find coreErrors hts hm harray

/-- Nothing is extracted if no member is spelled `data`. -/
theorem extractData_object_ne {body : List UInt8} {ms : List Member} (h : Text ObjectText body ms)
    (hkeys : ∀ m ∈ ms, m.key ≠ dataKey) (raw : List UInt8) : extractData body ≠ .ok raw := by
  obtain ⟨w₀, t, w₁, hw₀, ht, hw₁, rfl⟩ := h
  have hskip := ht.starts.skipWs (t := w₁) hw₀
  have hend : envelope coreErrors 1 (0x7d :: w₁) =
      fail coreErrors "missing 'data' array in jsonv2 envelope object" :=
    envelope_cons coreErrors (by decide) (by decide)
  cases ht with
  | @empty w hw =>
      rw [List.cons_append] at hskip
      rw [ne_eq, List.cons_append, extractData_of_envelope hskip, List.append_assoc, List.singleton_append,
        envelope_ws coreErrors hw, hend]
      rintro ⟨after, hscan, -⟩
      cases hscan
  | @members w ts _ hw hts =>
      rw [List.cons_append] at hskip
      rw [ne_eq, List.cons_append, extractData_of_envelope hskip, List.append_assoc, List.append_assoc,
        List.singleton_append, envelope_ws coreErrors hw,
        envelope_members coreErrors hts hkeys (by rw [skipWs_of_head (by simp [isWs])]; simp), hend]
      rintro ⟨after, hscan, -⟩
      cases hscan

end FrankenSnowflake.Jsonv2Scanner
