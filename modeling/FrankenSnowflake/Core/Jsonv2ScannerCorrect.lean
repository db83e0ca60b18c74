import FrankenSnowflake.Core.Jsonv2Scanner

/-!
# What the row scanner accepts

The scanner reads strings in the `lenient` dialect: any character but a quote
or a backslash stands for itself, control characters included, and the digits
of a `\u` escape are what `u16::from_str_radix` takes, a leading `+` included.
For that dialect it accepts exactly the row arrays of the JSON grammar.

`Returns P x` is the partial-correctness triple of a scan: `x` returns a value
with `P`, or an error the source reports.  It says in particular that `x`
neither indexes out of bounds nor runs out of fuel.
-/

namespace FrankenSnowflake.Jsonv2Scanner

open Foundation Foundation.Json

/-! ## Triples -/

section Returns

variable {ε α β : Type} {P : α → Prop} {Q : β → Prop}

/-- `x` returns a value with `P` or reports an error. -/
def Returns (P : α → Prop) : Scan ε α → Prop
  | .ok a => P a
  | .error (.error _) => True
  | .error .outOfBounds | .error .outOfFuel => False

theorem Returns.ok {a : α} (h : P a) : Returns (ε := ε) P (.ok a) := h

theorem Returns.fail (E : ScanErrors ε) (reason : String) : Returns P (fail E reason) := trivial

theorem Returns.bind {x : Scan ε α} {f : α → Scan ε β} (hx : Returns P x)
    (hf : ∀ a, P a → Returns Q (f a)) : Returns Q (x >>= f) := by
  match x, hx with
  | .ok a, hx => exact hf a hx
  | .error (.error _), _ => trivial

theorem Returns.mono {R : α → Prop} {x : Scan ε α} (hx : Returns P x) (h : ∀ a, P a → R a) :
    Returns R x := by
  match x, hx with
  | .ok a, hx => exact h a hx
  | .error (.error _), _ => trivial

theorem Returns.of_eq_ok {x : Scan ε α} {a : α} (hx : Returns P x) (h : x = .ok a) : P a := by
  subst h
  exact hx

theorem Returns.ne_outOfBounds {x : Scan ε α} (hx : Returns P x) : x ≠ .error .outOfBounds := by
  rintro rfl
  exact hx

end Returns

/-! ## Finding a quote or a backslash -/

theorem swarHit_of_mem {chunk : List UInt8} (hlen : chunk.length = 8)
    (h : ∃ b ∈ chunk, isQuoteOrEscape b) : swarHit chunk := by
  obtain ⟨b, hb, hhit⟩ := h
  have hquote : Swar.broadcast 0x22 = 0x2222222222222222 := by decide
  have hescape : Swar.broadcast 0x5c = 0x5c5c5c5c5c5c5c5c := by decide
  unfold swarHit
  rw [bne_iff_ne, ne_eq, Swar.or_and_eq_zero, not_and_or]
  rcases (by simpa [isQuoteOrEscape] using hhit : b = 0x22 ∨ b = 0x5c) with rfl | rfl
  · left
    rw [← hquote]
    exact Swar.zeroBytes_xor_broadcast_ne_zero hlen hb
  · right
    rw [← hescape]
    exact Swar.zeroBytes_xor_broadcast_ne_zero hlen hb

/-- Eight bytes at a time or one at a time, the first hit is the same. -/
theorem findFrom_eq (fuel i : Nat) (s : List UInt8) :
    findFrom fuel i s = (s.findIdx? isQuoteOrEscape).map (i + ·) := by
  induction fuel generalizing i s with
  | zero => rfl
  | succ fuel ih =>
      rw [findFrom]
      by_cases hlen : s.length < 8
      · rw [if_pos hlen]
      · rw [if_neg hlen]
        have hsplit : (s.take 8 ++ s.drop 8).findIdx? isQuoteOrEscape =
            ((s.take 8).findIdx? isQuoteOrEscape).or
              (((s.drop 8).findIdx? isQuoteOrEscape).map fun i ↦ i + (s.take 8).length) :=
          List.findIdx?_append
        rw [List.take_append_drop] at hsplit
        have htake : (s.take 8).length = 8 := by simp; omega
        cases hfind : (s.take 8).findIdx? isQuoteOrEscape with
        | some j =>
            have hhit : swarHit (s.take 8) := by
              obtain ⟨hj, hp, -⟩ := List.findIdx?_eq_some_iff_getElem.mp hfind
              exact swarHit_of_mem htake ⟨_, List.getElem_mem hj, hp⟩
            simp [hhit, hsplit, hfind]
        | none =>
            simp only [ih, hsplit, hfind, ite_self, htake]
            cases (s.drop 8).findIdx? isQuoteOrEscape with
            | none => rfl
            | some j =>
                simp
                omega

theorem findQuoteOrEscape_eq (s : List UInt8) :
    findQuoteOrEscape s = s.findIdx? isQuoteOrEscape := by
  rw [findQuoteOrEscape, findFrom_eq]
  simp

/-- Bytes without a quote or a backslash. -/
def Plain (s : List UInt8) : Prop := ∀ b ∈ s, isQuoteOrEscape b = false

theorem findQuoteOrEscape_append {s t : List UInt8} {b : UInt8} (hs : Plain s)
    (hb : isQuoteOrEscape b) : findQuoteOrEscape (s ++ b :: t) = some s.length := by
  have hnone : s.findIdx? isQuoteOrEscape = none := by
    rw [List.findIdx?_eq_none_iff]
    exact hs
  rw [findQuoteOrEscape_eq, List.findIdx?_append, hnone, List.findIdx?_cons, if_pos hb]
  simp

/-- A hit splits the bytes at the first quote or backslash. -/
theorem findQuoteOrEscape_eq_some {s : List UInt8} {n : Nat} (h : findQuoteOrEscape s = some n) :
    ∃ pre b post, s = pre ++ b :: post ∧ Plain pre ∧ isQuoteOrEscape b ∧ n = pre.length := by
  rw [findQuoteOrEscape_eq] at h
  obtain ⟨hn, hb, hbefore⟩ := List.findIdx?_eq_some_iff_getElem.mp h
  refine ⟨s.take n, s[n], s.drop (n + 1), ?_, ?_, hb, ?_⟩
  · simp
  · intro x hx
    obtain ⟨i, hi, rfl⟩ := List.mem_iff_getElem.mp hx
    simp only [List.length_take] at hi
    have hfalse := hbefore i (by omega)
    simpa using hfalse
  · simp
    omega

theorem byteAt_append {ε : Type} (s t : List UInt8) (b : UInt8) :
    byteAt (ε := ε) (s ++ b :: t) s.length = .ok b := by
  simp [byteAt]

theorem drop_length_succ {α : Type} (s t : List α) (a : α) :
    (s ++ a :: t).drop (s.length + 1) = t := by
  rw [← List.drop_drop, List.drop_left]
  rfl

/-! ## The dialect of the scanner -/

theorem u16FromStrRadix16_lt {ds : List UInt8} {n : Nat} (h : u16FromStrRadix16 ds = some n) :
    n < 0x10000 := by
  unfold u16FromStrRadix16 at h
  split at h
  next => cases h
  next => cases h
  next => cases h
  next => simpa using (Option.filter_eq_some_iff.mp h).2
  next => simpa using (Option.filter_eq_some_iff.mp h).2

/-- Strings as the scanner reads them. -/
def lenient : Dialect where
  raw c := c ≠ '"' && c ≠ '\\'
  hex4 := u16FromStrRadix16
  hex4_lt _ h := u16FromStrRadix16_lt h

theorem plain_iff {s : List UInt8} : Plain s ↔ (0x22 : UInt8) ∉ s ∧ (0x5c : UInt8) ∉ s := by
  unfold Plain isQuoteOrEscape
  constructor
  · intro h
    exact ⟨fun hmem ↦ by simpa using h _ hmem, fun hmem ↦ by simpa using h _ hmem⟩
  · rintro ⟨hquote, hescape⟩ b hb
    have h₁ : b ≠ 0x22 := fun h ↦ hquote (h ▸ hb)
    have h₂ : b ≠ 0x5c := fun h ↦ hescape (h ▸ hb)
    simp [h₁, h₂]

theorem plain_encode {cs : List Char} : Plain (Utf8.encode cs) ↔ ∀ c ∈ cs, lenient.raw c := by
  have hquote : Char.ofUInt8 0x22 = '"' := by decide
  have hescape : Char.ofUInt8 0x5c = '\\' := by decide
  rw [plain_iff, Utf8.mem_encode_ascii (by decide), Utf8.mem_encode_ascii (by decide), hquote,
    hescape]
  simp only [lenient, Bool.and_eq_true, decide_eq_true_eq]
  constructor
  · rintro ⟨h₁, h₂⟩ c hc
    exact ⟨fun h ↦ h₁ (h ▸ hc), fun h ↦ h₂ (h ▸ hc)⟩
  · intro h
    exact ⟨fun hc ↦ (h _ hc).1 rfl, fun hc ↦ (h _ hc).2 rfl⟩

theorem u16FromStrRadix16_ascii {ds : List UInt8} {n : Nat} (h : u16FromStrRadix16 ds = some n) :
    ∀ b ∈ ds, b < 0x80 := by
  unfold u16FromStrRadix16 at h
  split at h
  next => cases h
  next => cases h
  next => cases h
  next ds _ =>
    obtain ⟨h, -⟩ := Option.filter_eq_some_iff.mp h
    exact List.forall_mem_cons.mpr ⟨by decide, hexDigits?_ascii h⟩
  next =>
    obtain ⟨h, -⟩ := Option.filter_eq_some_iff.mp h
    exact hexDigits?_ascii h

theorem lenient_extends_rfc8259 : lenient.Extends rfc8259 where
  raw := by
    intro c h
    simp only [rfc8259, Bool.and_eq_true, decide_eq_true_eq] at h
    simp [lenient, h.1.2, h.2]
  hex4 := by
    intro ds n hlen h
    have hlt := rfc8259.hex4_lt hlen h
    have hds : hexDigits? 0 ds = some n := h
    change u16FromStrRadix16 ds = some n
    unfold u16FromStrRadix16
    split
    next => simp at hlen
    next => simp at hlen
    next => simp at hlen
    next => simp [hexDigits?, hexDigit?] at hds
    next => simp [hds, hlt]

/-! ## Escapes -/

section Scanner

variable {ε : Type} (E : ScanErrors ε)

theorem take_append_four {s : List UInt8} (h : ¬ s.length < 4) :
    (s.take 4).length = 4 ∧ s = s.take 4 ++ s.drop 4 := by
  refine ⟨?_, (List.take_append_drop 4 s).symm⟩
  simp
  omega

theorem pairScalar_lt {hi lo : Nat} (hhi : isHighSurrogate hi) (hlo : isLowSurrogate lo) :
    pairScalar hi lo < 0x110000 := by
  simp only [isHighSurrogate, isLowSurrogate, Bool.and_eq_true, decide_eq_true_eq] at hhi hlo
  unfold pairScalar
  omega

/-- The low half stands right after the high half. -/
theorem lowSurrogate_returns {ds s : List UInt8} {code : Nat} (hds : ds.length = 4)
    (hcode : lenient.hex4 ds = some code) (hhi : isHighSurrogate code) :
    Returns (fun r ↦ ∃ e, 0x5c :: 0x75 :: (ds ++ s) = e ++ r.2 ∧ EscapeText lenient e r.1)
      (lowSurrogate E code s) := by
  unfold lowSurrogate
  split
  next h =>
    obtain ⟨hlen, h₀, h₁⟩ := h
    obtain ⟨rest, rfl⟩ : ∃ rest, s = 0x5c :: 0x75 :: rest := by
      match s, h₀, h₁ with
      | b₀ :: b₁ :: rest, h₀, h₁ =>
        simp at h₀ h₁
        exact ⟨rest, by rw [h₀, h₁]⟩
    have hrest : ¬ rest.length < 4 := by simp at hlen; omega
    obtain ⟨hes, hsplit⟩ := take_append_four hrest
    simp only [List.drop_succ_cons, List.drop_zero]
    split
    next => exact .fail E _
    split
    next => exact .fail E _
    next lowCode hlow =>
    by_cases hlo : isLowSurrogate lowCode
    · have hpair : EscapeText lenient _ _ := .pair hds hes hcode hlow hhi hlo
      have hscalar := pairScalar_lt hhi hlo
      simp only [hlo, hscalar, ↓reduceIte]
      refine .ok ⟨0x5c :: 0x75 :: (ds ++ 0x5c :: 0x75 :: rest.take 4), ?_, ?_⟩
      · simp
      · dsimp only
        exact hpair
    · rw [if_neg hlo]
      exact .fail E _
  next => exact .fail E _

theorem unicodeEscape_returns {s : List UInt8} :
    Returns (fun r ↦ ∃ e, 0x5c :: 0x75 :: s = e ++ r.2 ∧ EscapeText lenient e r.1)
      (unicodeEscape E s) := by
  unfold unicodeEscape
  split
  next => exact .fail E _
  next hlen =>
  obtain ⟨hds, hsplit⟩ := take_append_four hlen
  split
  next => exact .fail E _
  split
  next => exact .fail E _
  next code hcode =>
  split
  next hhi =>
    have hpair := lowSurrogate_returns E (s := s.drop 4) hds hcode hhi
    rwa [← hsplit] at hpair
  next hhi =>
  split
  next => exact .fail E _
  next hlo =>
    have hunicode : EscapeText lenient _ _ :=
      .unicode hds hcode (by simpa using hhi) (by simpa using hlo)
    refine .ok ⟨_, ?_, hunicode⟩
    simp

theorem escape_returns (s : List UInt8) :
    Returns (fun r ↦ ∃ e, s = e ++ r.2 ∧ EscapeText lenient e r.1) (escape E s) := by
  unfold escape
  split
  next => exact .fail E _
  next b s =>
  split
  next => exact .fail E _
  next hb =>
  obtain rfl : b = 0x5c := by simpa using hb
  split
  next => exact .fail E _
  next e s =>
  split
  next c hc => exact .ok ⟨_, rfl, .short hc⟩
  next =>
    split
    next he =>
      subst he
      exact unicodeEscape_returns E
    next => exact .fail E _

/-- Every escape of the dialect is read as it is spelled. -/
theorem escape_complete {e : List UInt8} {c : Char} (h : EscapeText lenient e c)
    (rest : List UInt8) : escape E (e ++ rest) = .ok (c, rest) := by
  cases h with
  | short h => simp [escape, h]
  | @unicode ds n hlen h hhi hlo =>
      have hascii := Utf8.decode_ascii (u16FromStrRadix16_ascii h)
      have hu : shortEscape? 0x75 = none := by decide
      have hnlen : ¬ ds.length + rest.length < 4 := by omega
      have htake : (ds ++ rest).take 4 = ds := by rw [← hlen, List.take_left]
      have hdrop : (ds ++ rest).drop 4 = rest := by rw [← hlen, List.drop_left]
      have hcode : u16FromStrRadix16 ds = some n := h
      simp [escape, hu, unicodeEscape, hnlen, htake, hdrop, hascii, hcode, hhi, hlo]
  | @pair ds es hi lo hds hes hhi hlo hhi' hlo' =>
      have hascii := Utf8.decode_ascii (u16FromStrRadix16_ascii hhi)
      have hascii' := Utf8.decode_ascii (u16FromStrRadix16_ascii hlo)
      have hu : shortEscape? 0x75 = none := by decide
      have hcode : u16FromStrRadix16 ds = some hi := hhi
      have hcode' : u16FromStrRadix16 es = some lo := hlo
      have hscalar := pairScalar_lt hhi' hlo'
      have htake : ∀ t : List UInt8, (ds ++ t).take 4 = ds := fun t ↦ by rw [← hds, List.take_left]
      have hdrop : ∀ t : List UInt8, (ds ++ t).drop 4 = t := fun t ↦ by rw [← hds, List.drop_left]
      have htake' : (es ++ rest).take 4 = es := by rw [← hes, List.take_left]
      have hdrop' : (es ++ rest).drop 4 = rest := by rw [← hes, List.drop_left]
      have hlen : ¬ (ds ++ 0x5c :: 0x75 :: (es ++ rest)).length < 4 := by simp; omega
      have hlen' : 6 ≤ (0x5c :: 0x75 :: (es ++ rest) : List UInt8).length := by simp; omega
      have hlow : lowSurrogate E hi (0x5c :: 0x75 :: (es ++ rest)) =
          .ok (Char.ofNat (pairScalar hi lo), rest) := by
        simp [lowSurrogate, htake', hdrop', hascii', hcode', hlo', hscalar]
        omega
      have hhead : unicodeEscape E (ds ++ 0x5c :: 0x75 :: (es ++ rest)) =
          .ok (Char.ofNat (pairScalar hi lo), rest) := by
        rw [unicodeEscape, if_neg hlen]
        simp only [htake, hdrop, hascii, hcode, hhi', hlow, ↓reduceIte]
      simp [escape, hu, hhead]

/-! ## Strings

Between its escapes a string is a run of plain bytes; the scanner copies the
runs, appends what each escape spells, and asks for valid UTF-8 at the end. -/

/-- Escapes with plain runs behind them, and the bytes they unescape to. -/
inductive Runs : List UInt8 → List UInt8 → Prop where
  | nil : Runs [] []
  | cons {e r t o : List UInt8} {c : Char} (he : EscapeText lenient e c) (hr : Plain r)
      (ht : Runs t o) : Runs (e ++ (r ++ t)) (String.utf8EncodeChar c ++ (r ++ o))

omit E in
theorem Runs.eq_nil_or_cons {t o : List UInt8} (h : Runs t o) :
    t = [] ∧ o = [] ∨ ∃ t', t = 0x5c :: t' := by
  cases h with
  | nil => exact Or.inl ⟨rfl, rfl⟩
  | cons he _ _ =>
      obtain ⟨x, e', rfl⟩ := he.eq_cons
      exact Or.inr ⟨_, rfl⟩

omit E in
theorem Runs.head_out {t o : List UInt8} (h : Runs t o) :
    ∀ b ∈ o.head?, b.IsUTF8FirstByte := by
  cases h with
  | nil => simp
  | cons => exact Utf8.isUTF8FirstByte_head

omit E in
/-- Runs that unescape to an encoded text spell that text. -/
theorem Runs.bodyText {t o : List UInt8} (h : Runs t o) {cs : List Char}
    (ho : Utf8.encode cs = o) : BodyText lenient t cs := by
  induction h generalizing cs with
  | nil =>
      obtain rfl : cs = [] := Utf8.encode_injective ho
      exact .nil
  | @cons e r t o c he hr ht ih =>
      obtain ⟨cs₁, cs₂, rfl, hcs₁, hcs₂⟩ := Utf8.encode_eq_append_char (s := []) ho
      obtain rfl : cs₁ = [] := Utf8.encode_injective hcs₁
      obtain ⟨ds, cs₃, rfl, rfl, hcs₃⟩ := Utf8.encode_eq_append hcs₂ ht.head_out
      exact .escape he (.append_raw (plain_encode.mp hr) (ih hcs₃))

omit E in
/-- The body of a string is a plain run and then runs behind escapes. -/
theorem exists_runs {t : List UInt8} {cs : List Char} (h : BodyText lenient t cs) :
    ∃ r t' o, t = r ++ t' ∧ Plain r ∧ Runs t' o ∧ Utf8.encode cs = r ++ o := by
  induction h with
  | nil => exact ⟨[], [], [], rfl, by simp [Plain], .nil, rfl⟩
  | @raw c t cs hc _ ih =>
      obtain ⟨r, t', o, rfl, hr, hruns, ho⟩ := ih
      refine ⟨String.utf8EncodeChar c ++ r, t', o, by simp, ?_, hruns, by simp [ho]⟩
      have hplain : Plain (Utf8.encode [c]) := plain_encode.mpr (by simpa using hc)
      rw [Utf8.encode_cons, Utf8.encode_nil, List.append_nil] at hplain
      intro b hb
      rcases List.mem_append.mp hb with hb | hb
      · exact hplain b hb
      · exact hr b hb
  | @escape e c t cs he _ ih =>
      obtain ⟨r, t', o, rfl, hr, hruns, ho⟩ := ih
      exact ⟨[], _, _, rfl, by simp [Plain], .cons he hr hruns, by simp [ho]⟩

theorem decodeEscapesInto_returns {fuel : Nat} {s scratch : List UInt8} (hne : s ≠ [])
    (hfuel : s.length ≤ fuel) :
    Returns (fun r ↦ ∃ t o, s = t ++ 0x22 :: r.2 ∧ Runs t o ∧ r.1 = scratch ++ o)
      (decodeEscapesInto E fuel s scratch) := by
  induction fuel generalizing s scratch with
  | zero => exact absurd (List.length_eq_zero_iff.mp (Nat.le_zero.mp hfuel)) hne
  | succ fuel ih =>
      refine (escape_returns E s).bind ?_
      rintro ⟨c, s'⟩ ⟨e, rfl, he⟩
      obtain ⟨x, e', rfl⟩ := he.eq_cons
      simp only
      split
      next => exact .fail E _
      next hit hfind =>
        obtain ⟨r, b, post, rfl, hr, hb, rfl⟩ := findQuoteOrEscape_eq_some hfind
        rw [byteAt_append, List.take_left, List.drop_left, drop_length_succ]
        change Returns _ (if b = 0x22 then _ else _)
        split
        next hquote =>
          subst hquote
          exact .ok ⟨_, _, by simp, .cons he hr .nil, by simp⟩
        next hquote =>
          -- the hit is a backslash: the loop goes on from there
          refine (ih (by simp) (by simp at hfuel ⊢; omega)).mono ?_
          rintro ⟨out, rest⟩ ⟨t, o, ht, hruns, rfl⟩
          refine ⟨_, _, ?_, .cons he hr hruns, by simp⟩
          simp [ht]

theorem decodeEscapesInto_complete {fuel : Nat} {t o scratch : List UInt8} (hruns : Runs t o)
    (hne : t ≠ []) (hfuel : t.length ≤ fuel) (rest : List UInt8) :
    decodeEscapesInto E fuel (t ++ 0x22 :: rest) scratch = .ok (scratch ++ o, rest) := by
  induction fuel generalizing t o scratch with
  | zero => exact absurd (List.length_eq_zero_iff.mp (Nat.le_zero.mp hfuel)) hne
  | succ fuel ih =>
      cases hruns with
      | nil => exact absurd rfl hne
      | @cons e r t o c he hr ht =>
          obtain ⟨x, e', rfl⟩ := he.eq_cons
          have hescape := escape_complete E he (r ++ (t ++ 0x22 :: rest))
          have hassoc : 0x5c :: x :: e' ++ (r ++ t) ++ 0x22 :: rest =
              0x5c :: x :: e' ++ (r ++ (t ++ 0x22 :: rest)) := by simp
          rw [hassoc, decodeEscapesInto, hescape]
          simp only [bind, Except.bind]
          rcases ht.eq_nil_or_cons with ⟨rfl, rfl⟩ | ⟨t', rfl⟩
          · rw [List.nil_append, findQuoteOrEscape_append hr (by decide)]
            simp only [byteAt_append, List.take_left, drop_length_succ]
            simp [bind, Except.bind]
          · have hlast := @ih _ _ (scratch ++ String.utf8EncodeChar c ++ r) ht (by simp)
              (by simp at hfuel ⊢; omega)
            rw [List.cons_append] at hlast ⊢
            rw [findQuoteOrEscape_append hr (by decide)]
            simp only [byteAt_append, List.take_left, List.drop_left]
            simpa [bind, Except.bind] using hlast

theorem scanString_returns (s : List UInt8) :
    Returns (fun r ↦ ∃ t cs, s = t ++ 0x22 :: r.2 ∧ BodyText lenient t cs ∧ r.1.asStr = some cs)
      (scanString E s) := by
  unfold scanString
  split
  next => exact .fail E _
  next hit hfind =>
    obtain ⟨r, b, post, rfl, hr, hb, rfl⟩ := findQuoteOrEscape_eq_some hfind
    rw [byteAt_append, List.take_left, List.drop_left, drop_length_succ]
    change Returns _ (if b = 0x22 then _ else _)
    split
    next hquote =>
      subst hquote
      split
      next => exact .fail E _
      next cs hcs =>
        obtain rfl := Utf8.decode_eq_some.mp hcs
        have hbody := BodyText.append_raw (plain_encode.mp hr) .nil
        rw [List.append_nil, List.append_nil] at hbody
        exact .ok ⟨_, cs, rfl, hbody, rfl⟩
    next =>
      refine (decodeEscapesInto_returns E (by simp) (by simp)).bind ?_
      rintro ⟨out, rest⟩ ⟨t, o, ht, hruns, rfl⟩
      simp only
      split
      next => exact .fail E _
      next cs hcs =>
        obtain ⟨ds, cs', rfl, rfl, hcs'⟩ :=
          Utf8.encode_eq_append (Utf8.decode_eq_some.mp hcs).symm hruns.head_out
        refine .ok ⟨_, _, ?_, .append_raw (plain_encode.mp hr) (hruns.bodyText hcs'), rfl⟩
        simpa using ht

theorem scanString_complete {t : List UInt8} {cs : List Char} (h : BodyText lenient t cs)
    (rest : List UInt8) :
    ∃ cell, scanString E (t ++ 0x22 :: rest) = .ok (cell, rest) ∧ cell.asStr = some cs := by
  obtain ⟨r, t', o, rfl, hr, hruns, ho⟩ := exists_runs h
  rw [List.append_assoc]
  rcases hruns.eq_nil_or_cons with ⟨rfl, rfl⟩ | ⟨t'', rfl⟩
  · have hdecode : Utf8.decode r = some cs := Utf8.decode_eq_some.mpr (by simpa using ho.symm)
    refine ⟨.borrowed cs, ?_, rfl⟩
    rw [List.nil_append, scanString, findQuoteOrEscape_append hr (by decide)]
    simp only [byteAt_append, List.take_left, drop_length_succ]
    simp [bind, Except.bind, hdecode]
  · have hdecode : Utf8.decode (r ++ o) = some cs := Utf8.decode_eq_some.mpr ho.symm
    have hloop : decodeEscapesInto E (r ++ 0x5c :: t'' ++ 0x22 :: rest).length
        (0x5c :: t'' ++ 0x22 :: rest) r = .ok (r ++ o, rest) :=
      decodeEscapesInto_complete E hruns (by simp) (by simp; omega) rest
    refine ⟨.unescaped cs, ?_, rfl⟩
    rw [List.append_assoc, List.cons_append] at hloop
    rw [List.cons_append, scanString, findQuoteOrEscape_append hr (by decide)]
    simp only [byteAt_append, List.take_left, List.drop_left, hloop]
    simp [bind, Except.bind, hdecode]

/-! ## Cells and rows -/

/-- A nullable string of a row. -/
inductive CellText (D : Dialect) : List UInt8 → Option (List Char) → Prop where
  | null : CellText D [0x6e, 0x75, 0x6c, 0x6c] none
  | string {s : List UInt8} {cs : List Char} (h : StringText D s cs) : CellText D s (some cs)

/-- An array of arrays of nullable strings. -/
def RowsText (D : Dialect) : List UInt8 → List (List (Option (List Char))) → Prop :=
  ArrayText (ArrayText (CellText D))

theorem CellText.extend {D D' : Dialect} (hD : D.Extends D') {s : List UInt8}
    {v : Option (List Char)} (h : CellText D' s v) : CellText D s v := by
  cases h with
  | null => exact .null
  | string h => exact .string (h.extend hD)

theorem RowsText.extend {D D' : Dialect} (hD : D.Extends D') {s : List UInt8}
    {rows : List (List (Option (List Char)))} (h : RowsText D' s rows) : RowsText D s rows :=
  h.mono fun _ _ hrow ↦ hrow.mono fun _ _ hcell ↦ hcell.extend hD

theorem scanCell_returns (s : List UInt8) :
    Returns (fun r ↦ ∃ t, s = t ++ r.2 ∧ CellText lenient t r.1.asStr) (scanCell E s) := by
  unfold scanCell
  split
  next => exact .fail E _
  next b rest =>
  split
  next hb =>
    split
    next h =>
      obtain ⟨-, hnull⟩ := h
      refine .ok ⟨_, (List.take_append_drop 4 (b :: rest)).symm, ?_⟩
      rw [of_decide_eq_true hnull]
      exact .null
    next => exact .fail E _
  next =>
    split
    next hb =>
      subst hb
      refine (scanString_returns E rest).mono ?_
      rintro ⟨cell, rest'⟩ ⟨t, cs, rfl, ht, hcell⟩
      refine ⟨0x22 :: (t ++ [0x22]), by simp, ?_⟩
      rw [hcell]
      exact .string ⟨t, rfl, ht⟩
    next => exact .fail E _

theorem scanCell_complete {t : List UInt8} {v : Option (List Char)} (h : CellText lenient t v)
    (rest : List UInt8) : ∃ cell, scanCell E (t ++ rest) = .ok (cell, rest) ∧ cell.asStr = v := by
  cases h with
  | null =>
      refine ⟨.null, ?_, rfl⟩
      simp [scanCell, matchNull]
  | string h =>
      obtain ⟨t, rfl, ht⟩ := h
      obtain ⟨cell, hcell, hstr⟩ := scanString_complete E ht rest
      refine ⟨cell, ?_, hstr⟩
      rw [List.cons_append, List.append_assoc, List.singleton_append, scanCell]
      simpa using hcell

end Scanner

theorem decodeCells_returns {fuel : Nat} {s : List UInt8} (hfuel : s.length < fuel) :
    Returns (fun r ↦ ∃ t, s = t ++ 0x5d :: r.2 ∧ Elements (CellText lenient) t r.1)
      (decodeCells fuel s) := by
  induction fuel generalizing s with
  | zero => exact absurd hfuel (Nat.not_lt_zero _)
  | succ fuel ih =>
      refine (scanCell_returns coreErrors s).bind ?_
      rintro ⟨cell, s'⟩ ⟨t, rfl, ht⟩
      simp only
      split
      next => exact .fail _ _
      next b post hskip =>
      obtain ⟨w, hw, rfl⟩ := skipWs_eq_cons hskip
      split
      next hcomma =>
        subst hcomma
        obtain ⟨w', hw', hpost⟩ := exists_ws_append post
        have hlen := length_skipWs_le post
        refine (ih (by simp at hfuel; omega)).bind ?_
        rintro ⟨row, rest⟩ ⟨ts, hts, hrow⟩
        refine .ok ⟨_, ?_, .cons ht hw hw' hrow⟩
        rw [hpost]
        simp [hts]
      next =>
        split
        next hclose =>
          subst hclose
          exact .ok ⟨_, by simp, .one ht hw⟩
        next => exact .fail _ _

theorem CellText.starts {D : Dialect} {t : List UInt8} {v : Option (List Char)}
    (h : CellText D t v) : Starts t := by
  cases h with
  | null => exact ⟨_, _, rfl, by decide, by decide⟩
  | string h =>
      obtain ⟨t, rfl, -⟩ := h
      exact ⟨_, _, rfl, by decide, by decide⟩

theorem decodeCells_complete {fuel : Nat} {t : List UInt8} {row : List (Option (List Char))}
    (h : Elements (CellText lenient) t row) (hfuel : t.length < fuel) (rest : List UInt8) :
    decodeCells fuel (t ++ 0x5d :: rest) = .ok (row, rest) := by
  induction h generalizing fuel with
  | @one t w v ht hw =>
      obtain ⟨fuel, rfl⟩ : ∃ k, fuel = k + 1 := ⟨fuel - 1, by omega⟩
      obtain ⟨cell, hcell, rfl⟩ := scanCell_complete coreErrors ht (w ++ 0x5d :: rest)
      rw [List.append_assoc, decodeCells, hcell]
      simp [bind, Except.bind, skipWs_append_cons hw (show isWs 0x5d = false by decide), pure,
        Except.pure]
  | @cons t w w' ts v vs ht hw hw' hts ih =>
      obtain ⟨fuel, rfl⟩ : ∃ k, fuel = k + 1 := ⟨fuel - 1, by omega⟩
      obtain ⟨cell, hcell, rfl⟩ :=
        scanCell_complete coreErrors ht (w ++ 0x2c :: (w' ++ (ts ++ 0x5d :: rest)))
      have htail := ih (show ts.length < fuel by simp at hfuel; omega)
      have hnext := (hts.starts fun _ _ ↦ CellText.starts).skipWs (t := 0x5d :: rest) hw'
      rw [List.append_assoc, List.append_assoc, List.cons_append, List.append_assoc, decodeCells,
        hcell]
      simp [bind, Except.bind, skipWs_append_cons hw (show isWs 0x2c = false by decide), hnext,
        htail, pure, Except.pure]

/-- A row after its opening bracket. -/
theorem decodeRow_returns (s : List UInt8) :
    Returns (fun r ↦ ∃ t, 0x5b :: s = t ++ r.2 ∧ ArrayText (CellText lenient) t r.1)
      (decodeRow s) := by
  unfold decodeRow
  split
  next post hskip =>
    obtain ⟨w, hw, rfl⟩ := skipWs_eq_cons hskip
    exact .ok ⟨_, by simp, .empty hw⟩
  next =>
    obtain ⟨w, hw, hs⟩ := exists_ws_append s
    refine (decodeCells_returns (Nat.lt_succ_self _)).mono ?_
    rintro ⟨row, rest⟩ ⟨t, ht, hrow⟩
    refine ⟨_, ?_, .elements hw hrow⟩
    rw [hs, ht]
    simp

theorem decodeRow_complete {t : List UInt8} {row : List (Option (List Char))}
    (h : ArrayText (CellText lenient) (0x5b :: t) row) (rest : List UInt8) :
    decodeRow (t ++ rest) = .ok (row, rest) := by
  unfold decodeRow
  cases h with
  | @empty w hw =>
      rw [List.append_assoc, List.singleton_append, skipWs_append_cons hw (by decide)]
      rfl
  | @elements w ts _ hw hts =>
      obtain ⟨b, ts', rfl, hb, hb'⟩ := hts.starts fun _ _ ↦ CellText.starts
      have hcells := decodeCells_complete hts
        (Nat.lt_of_le_of_lt (by simp) (Nat.lt_succ_self (b :: ts' ++ 0x5d :: rest).length)) rest
      rw [List.append_assoc, List.append_assoc, List.singleton_append, List.cons_append,
        skipWs_append_cons hw hb]
      rw [List.cons_append] at hcells
      split
      next h => exact absurd (List.cons.inj h).1 hb'
      next => exact hcells

/-! ## The whole payload -/

theorem scanEnd_returns {ε β : Type} (E : ScanErrors ε) (s : List UInt8) (b : β) :
    Returns (fun r ↦ Ws s ∧ r = b) (scanEnd E s b) := by
  unfold scanEnd
  split
  next h =>
    obtain ⟨w, hw, hs⟩ := exists_ws_append s
    rw [h, List.append_nil] at hs
    exact .ok ⟨hs ▸ hw, rfl⟩
  next => exact .fail _ _

theorem scanEnd_complete {ε β : Type} (E : ScanErrors ε) {w : List UInt8} (hw : Ws w) (b : β) :
    scanEnd E w b = .ok b := by
  have hskip := skipWs_append (s := []) hw
  rw [List.append_nil] at hskip
  rw [scanEnd, hskip]
  rfl

theorem decodeRowsFrom_returns {fuel : Nat} {s : List UInt8} (hfuel : s.length < fuel) :
    Returns (fun rows ↦ ∃ t w, s = t ++ 0x5d :: w ∧ Ws w ∧
        Elements (ArrayText (CellText lenient)) t rows) (decodeRowsFrom fuel s) := by
  induction fuel generalizing s with
  | zero => exact absurd hfuel (Nat.not_lt_zero _)
  | succ fuel ih =>
      cases s with
      | nil => exact .fail _ _
      | cons b s =>
          rw [decodeRowsFrom]
          split
          next => exact .fail _ _
          next hb =>
          obtain rfl : b = 0x5b := by simpa using hb
          refine (decodeRow_returns s).bind ?_
          rintro ⟨row, s'⟩ ⟨t, hs, ht⟩
          simp only
          split
          next => exact .fail _ _
          next b post hskip =>
          obtain ⟨w, hw, rfl⟩ := skipWs_eq_cons hskip
          rw [hs]
          rw [hs] at hfuel
          split
          next hcomma =>
            subst hcomma
            obtain ⟨w', hw', hpost⟩ := exists_ws_append post
            have hlen := length_skipWs_le post
            refine (ih (by simp at hfuel; omega)).bind ?_
            rintro rows ⟨ts, w'', hts, hw'', hrows⟩
            refine .ok ⟨_, w'', ?_, hw'', .cons ht hw hw' hrows⟩
            rw [hpost]
            simp [hts]
          next =>
            split
            next hclose =>
              subst hclose
              refine (scanEnd_returns coreErrors post [row]).mono ?_
              rintro rows ⟨hpost, rfl⟩
              exact ⟨_, post, by simp, hpost, .one ht hw⟩
            next => exact .fail _ _

theorem decodeRowsFrom_complete {fuel : Nat} {t w : List UInt8}
    {rows : List (List (Option (List Char)))}
    (h : Elements (ArrayText (CellText lenient)) t rows) (hw : Ws w) (hfuel : t.length < fuel) :
    decodeRowsFrom fuel (t ++ 0x5d :: w) = .ok rows := by
  induction h generalizing fuel with
  | @one t w₁ row ht hw₁ =>
      obtain ⟨fuel, rfl⟩ : ∃ k, fuel = k + 1 := ⟨fuel - 1, by omega⟩
      obtain ⟨t, rfl⟩ := ht.eq_cons
      have hrow := decodeRow_complete ht (w₁ ++ 0x5d :: w)
      rw [List.append_assoc, List.cons_append, decodeRowsFrom, hrow]
      simp [bind, Except.bind, skipWs_append_cons hw₁ (show isWs 0x5d = false by decide),
        scanEnd_complete coreErrors hw]
  | @cons t w₁ w₂ ts row rows ht hw₁ hw₂ hts ih =>
      obtain ⟨fuel, rfl⟩ : ∃ k, fuel = k + 1 := ⟨fuel - 1, by omega⟩
      obtain ⟨t, rfl⟩ := ht.eq_cons
      have hrow := decodeRow_complete ht (w₁ ++ 0x2c :: (w₂ ++ (ts ++ 0x5d :: w)))
      have htail := ih (show ts.length < fuel by simp at hfuel; omega)
      have hnext := (hts.starts fun _ _ ↦ ArrayText.starts).skipWs (t := 0x5d :: w) hw₂
      rw [List.append_assoc, List.append_assoc, List.cons_append, List.cons_append,
        List.append_assoc, decodeRowsFrom, hrow]
      simp [bind, Except.bind, skipWs_append_cons hw₁ (show isWs 0x2c = false by decide), hnext,
        htail, pure, Except.pure]

/-- What decoding an array returns is an array of rows in the scanner's dialect. -/
theorem decodeArray_returns (bytes : List UInt8) :
    Returns (Text (RowsText lenient) bytes) (decodeArray bytes) := by
  unfold decodeArray
  split
  next => exact .fail _ _
  next b s hskip =>
  obtain ⟨w, hw, rfl⟩ := skipWs_eq_cons hskip
  split
  next => exact .fail _ _
  next hb =>
  obtain rfl : b = 0x5b := by simpa using hb
  obtain ⟨w', hw', hs⟩ := exists_ws_append s
  split
  next => exact .fail _ _
  next post hskip' =>
    refine (scanEnd_returns coreErrors post []).mono ?_
    rintro rows ⟨hpost, rfl⟩
    refine ⟨w, _, post, hw, .empty hw', hpost, ?_⟩
    rw [hs, hskip']
    simp
  next =>
    refine (decodeRowsFrom_returns (Nat.lt_succ_self _)).mono ?_
    rintro rows ⟨t, w'', ht, hw'', hrows⟩
    refine ⟨w, _, w'', hw, .elements hw' hrows, hw'', ?_⟩
    rw [hs, ht]
    simp

theorem decodeArray_complete {bytes : List UInt8} {rows : List (List (Option (List Char)))}
    (h : Text (RowsText lenient) bytes rows) : decodeArray bytes = .ok rows := by
  obtain ⟨w, t, w', hw, ht, hw', rfl⟩ := h
  unfold decodeArray
  cases ht with
  | @empty w₁ hw₁ =>
      rw [List.cons_append, skipWs_append_cons hw (by decide), List.append_assoc,
        List.singleton_append]
      simp only [skipWs_append_cons hw₁ (show isWs 0x5d = false by decide)]
      exact scanEnd_complete coreErrors hw' []
  | @elements w₁ ts _ hw₁ hts =>
      obtain ⟨b, ts', rfl, hb, hb'⟩ := hts.starts fun _ _ ↦ ArrayText.starts
      have hrows := decodeRowsFrom_complete hts hw'
        (Nat.lt_of_le_of_lt (by simp) (Nat.lt_succ_self (b :: ts' ++ 0x5d :: w').length))
      rw [List.cons_append, skipWs_append_cons hw (by decide), List.append_assoc,
        List.append_assoc, List.singleton_append, List.cons_append]
      rw [List.cons_append] at hrows
      simp only [skipWs_append_cons hw₁ hb, ne_eq, not_true_eq_false, ↓reduceIte]
      split
      next h => cases h
      next h => exact absurd (List.cons.inj h).1 hb'
      next => exact hrows

/-- An array decodes to its rows, in the scanner's dialect. -/
theorem decodeArray_eq_ok {bytes : List UInt8} {rows : List (List (Option (List Char)))} :
    decodeArray bytes = .ok rows ↔ Text (RowsText lenient) bytes rows :=
  ⟨(decodeArray_returns bytes).of_eq_ok, decodeArray_complete⟩

end FrankenSnowflake.Jsonv2Scanner
