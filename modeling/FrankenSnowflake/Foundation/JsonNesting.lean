import FrankenSnowflake.Foundation.JsonObject

/-!
# Nesting of JSON texts

A scan of a JSON text needs to know how many brackets are open and whether it is
inside a string.  It ends a value where it started it, it is inside the value
before, and it never agrees with a scan that is inside a string where the other
one is outside.  So an object that was cut off and a second object behind it do
not make a JSON value.
-/

namespace Foundation.Json

/-- Where a scan is: outside of strings, inside one, or behind a backslash in
one.  Outside, it knows whether the byte before belongs to a scalar. -/
inductive Place where
  | outside (afterScalar : Bool)
  | inside
  | escaped
deriving DecidableEq, Repr

def isOpen (b : UInt8) : Bool := b = 0x5b || b = 0x7b

def isClose (b : UInt8) : Bool := b = 0x5d || b = 0x7d

/-- One byte of a scan with `d` open brackets. -/
def nest : Place → Nat → UInt8 → Option (Place × Nat)
  | .outside afterScalar, d, b =>
      if b = 0x22 then if afterScalar then none else some (.inside, d)
      else if isOpen b then some (.outside false, d + 1)
      else if isClose b then if d = 0 then none else some (.outside false, d - 1)
      else some (.outside (isScalarByte b), d)
  | .inside, d, b =>
      if b = 0x22 then some (.outside false, d)
      else if b = 0x5c then some (.escaped, d)
      else some (.inside, d)
  | .escaped, d, _ => some (.inside, d)

/-- A scan of a text. -/
def nesting : Place → Nat → List UInt8 → Option (Place × Nat)
  | p, d, [] => some (p, d)
  | p, d, b :: s => (nest p d b).bind fun (p', d') ↦ nesting p' d' s

@[simp] theorem nesting_nil (p : Place) (d : Nat) : nesting p d [] = some (p, d) := rfl

theorem nesting_cons (p : Place) (d : Nat) (b : UInt8) (s : List UInt8) :
    nesting p d (b :: s) = (nest p d b).bind fun q ↦ nesting q.1 q.2 s := rfl

theorem nesting_append (p : Place) (d : Nat) (s t : List UInt8) :
    nesting p d (s ++ t) = (nesting p d s).bind fun q ↦ nesting q.1 q.2 t := by
  induction s generalizing p d with
  | nil => rfl
  | cons b s ih =>
      rw [List.cons_append, nesting_cons, nesting_cons, Option.bind_assoc]
      congr 1
      funext q
      exact ih q.1 q.2

/-- Under more open brackets a scan goes the same way. -/
theorem nest_add {p p' : Place} {d d' : Nat} {b : UInt8} (n : Nat)
    (h : nest p d b = some (p', d')) : nest p (d + n) b = some (p', d' + n) := by
  cases p with
  | outside afterScalar =>
      simp only [nest] at h ⊢
      split_ifs at h ⊢ <;> simp_all <;> omega
  | inside =>
      simp only [nest] at h ⊢
      split_ifs at h ⊢ <;> simp_all
  | escaped =>
      simp only [nest] at h ⊢
      simp_all

theorem nesting_add {p p' : Place} {d d' : Nat} {s : List UInt8} (n : Nat)
    (h : nesting p d s = some (p', d')) : nesting p (d + n) s = some (p', d' + n) := by
  induction s generalizing p d with
  | nil =>
      obtain ⟨rfl, rfl⟩ := Prod.mk.inj (Option.some.inj h)
      rfl
  | cons b s ih =>
      rw [nesting_cons, Option.bind_eq_some_iff] at h
      obtain ⟨⟨q, e⟩, hq, hs⟩ := h
      rw [nesting_cons, nest_add n hq]
      exact ih hs

/-! ## Values -/

theorem nesting_scalar {s : List UInt8} (hs : ∀ b ∈ s, isScalarByte b) (hne : s ≠ [])
    (p : Bool) (d : Nat) : nesting (.outside p) d s = some (.outside true, d) := by
  induction s generalizing p with
  | nil => exact absurd rfl hne
  | cons b s ih =>
      obtain ⟨hb, hs⟩ := List.forall_mem_cons.mp hs
      have hstep : nest (.outside p) d b = some (.outside true, d) := by
        have hb' := hb
        simp only [isScalarByte, Bool.and_eq_true, Bool.not_eq_true', decide_eq_true_eq] at hb'
        simp [nest, isOpen, isClose, hb, hb']
      rw [nesting_cons, hstep]
      by_cases hnil : s = []
      · subst hnil
        rfl
      · exact ih hs hnil true

theorem nesting_ws {w : List UInt8} (hw : Ws w) (p : Bool) (d : Nat) :
    ∃ p', nesting (.outside p) d w = some (.outside p', d) ∧ (p = false → p' = false) := by
  induction w generalizing p with
  | nil => exact ⟨p, rfl, id⟩
  | cons b w ih =>
      obtain ⟨hb, hw⟩ := List.forall_mem_cons.mp hw
      have hstep : nest (.outside p) d b = some (.outside false, d) := by
        simp only [isWs, Bool.or_eq_true, decide_eq_true_eq] at hb
        rcases hb with ((rfl | rfl) | rfl) | rfl <;> rfl
      obtain ⟨p', hp', hfalse⟩ := ih hw false
      refine ⟨p', ?_, fun _ ↦ hfalse rfl⟩
      rw [nesting_cons, hstep]
      exact hp'

/-- Whitespace in front is passed over. -/
theorem nesting_ws_append {w : List UInt8} (hw : Ws w) (d : Nat) (s : List UInt8) :
    nesting (.outside false) d (w ++ s) = nesting (.outside false) d s := by
  obtain ⟨p', hp', hfalse⟩ := nesting_ws hw false d
  rw [nesting_append, hp', hfalse rfl]
  rfl

theorem nesting_quoted {t : List UInt8} (ht : Quoted t) (d : Nat) (s : List UInt8) :
    nesting .inside d (t ++ 0x22 :: s) = nesting (.outside false) d s := by
  induction ht with
  | nil => rfl
  | raw hquote hescape _ ih =>
      rw [List.cons_append, nesting_cons]
      simpa [nest, hquote, hescape] using ih
  | escape _ ih =>
      rw [List.cons_append, List.cons_append, nesting_cons]
      simpa [nest, nesting_cons] using ih

/-- A string is passed over. -/
theorem nesting_string {t : List UInt8} (ht : Quoted t) (d : Nat) (s : List UInt8) :
    nesting (.outside false) d (0x22 :: (t ++ 0x22 :: s)) = nesting (.outside false) d s :=
  nesting_quoted ht d s

/-- Brackets around a text that a scan passes over. -/
theorem nesting_brackets {o c : UInt8} (ho : isOpen o) (hc : isClose c) {s : List UInt8} {d : Nat}
    (hs : ∃ p, nesting (.outside false) (d + 1) s = some (.outside p, d + 1)) :
    nesting (.outside false) d (o :: (s ++ [c])) = some (.outside false, d) := by
  obtain ⟨p, hs⟩ := hs
  have hopen : nest (.outside false) d o = some (.outside false, d + 1) := by
    simp only [isOpen, Bool.or_eq_true, decide_eq_true_eq] at ho
    rcases ho with rfl | rfl <;> rfl
  have hclose : nest (.outside p) (d + 1) c = some (.outside false, d) := by
    simp only [isClose, Bool.or_eq_true, decide_eq_true_eq] at hc
    rcases hc with rfl | rfl <;> cases p <;> rfl
  rw [nesting_cons, hopen, Option.bind_some, nesting_append, hs, Option.bind_some, nesting_cons,
    hclose]
  rfl

/-- A separator, and what stands around it. -/
theorem nesting_separated {b : UInt8} (hb : b = 0x2c ∨ b = 0x3a) {p : Bool} {d : Nat}
    {w w' : List UInt8} (hw : Ws w) (hw' : Ws w') (s : List UInt8) :
    nesting (.outside p) d (w ++ b :: (w' ++ s)) = nesting (.outside false) d s := by
  obtain ⟨p', hp', -⟩ := nesting_ws hw p d
  have hstep : nest (.outside p') d b = some (.outside false, d) := by
    rcases hb with rfl | rfl <;> cases p' <;> rfl
  rw [nesting_append, hp', Option.bind_some, nesting_cons, hstep]
  exact nesting_ws_append hw' d s

/-- A piece of JSON text is passed over. -/
theorem nesting_derives {rule : Rule} {s : List UInt8} (h : Derives rule s) (d : Nat) :
    ∃ p, nesting (.outside false) d s = some (.outside p, d) := by
  induction h generalizing d with
  | string ht => exact ⟨false, nesting_string ht d []⟩
  | scalar hne ht => exact ⟨true, nesting_scalar ht hne false d⟩
  | @emptyArray w hw =>
      exact ⟨false, nesting_brackets rfl rfl ⟨_, (nesting_ws hw false _).choose_spec.1⟩⟩
  | @array w t hw _ ih =>
      refine ⟨false, ?_⟩
      rw [← List.append_assoc]
      exact nesting_brackets rfl rfl (by simpa only [nesting_ws_append hw] using ih (d + 1))
  | @emptyObject w hw =>
      exact ⟨false, nesting_brackets rfl rfl ⟨_, (nesting_ws hw false _).choose_spec.1⟩⟩
  | @object w t hw _ ih =>
      refine ⟨false, ?_⟩
      rw [← List.append_assoc]
      exact nesting_brackets rfl rfl (by simpa only [nesting_ws_append hw] using ih (d + 1))
  | lastElement _ hw ih | lastMember _ hw ih =>
      obtain ⟨p, hp⟩ := ih d
      obtain ⟨p', hp', -⟩ := nesting_ws hw p d
      refine ⟨p', ?_⟩
      rw [nesting_append, hp]
      exact hp'
  | elements _ hw hw' _ iht ihts | members _ hw hw' _ iht ihts =>
      obtain ⟨p, hp⟩ := iht d
      obtain ⟨p', hp'⟩ := ihts d
      refine ⟨p', ?_⟩
      rw [nesting_append, hp, Option.bind_some, nesting_separated (Or.inl rfl) hw hw']
      exact hp'
  | member hk hw hw' _ ih =>
      obtain ⟨p, hp⟩ := ih d
      refine ⟨p, ?_⟩
      rw [nesting_string hk, nesting_separated (Or.inr rfl) hw hw']
      exact hp

/-! ## Objects -/

/-- Inside an object a bracket is open. -/
theorem nesting_object_prefix {s t : List UInt8} (h : Derives .value (0x7b :: (s ++ t)))
    (ht : t ≠ []) : ∃ p d, nesting (.outside false) 0 (0x7b :: s) = some (p, d + 1) := by
  obtain ⟨u, hu, hsu⟩ : ∃ u, (∃ p, nesting (.outside false) 0 u = some (.outside p, 0)) ∧
      s ++ t = u ++ [0x7d] := by
    generalize hv : 0x7b :: (s ++ t) = v at h
    cases h with
    | string => exact absurd (List.cons.inj hv).1 (by decide)
    | scalar hne hs => exact absurd (hs 0x7b (hv ▸ List.mem_cons_self)) (by decide)
    | emptyArray => exact absurd (List.cons.inj hv).1 (by decide)
    | array => exact absurd (List.cons.inj hv).1 (by decide)
    | @emptyObject w hw =>
        exact ⟨w, ⟨_, (nesting_ws hw false 0).choose_spec.1⟩, (List.cons.inj hv).2⟩
    | @object w ts hw hts =>
        refine ⟨w ++ ts, ?_, by rw [(List.cons.inj hv).2, List.append_assoc]⟩
        rw [nesting_ws_append hw]
        exact nesting_derives hts 0
  obtain ⟨t', b, rfl⟩ := List.eq_nil_or_concat t |>.resolve_left ht
  obtain ⟨p, hp⟩ := hu
  have hpre : s ++ t' = u := by
    rw [List.concat_eq_append, ← List.append_assoc] at hsu
    exact (List.append_inj' hsu rfl).1
  rw [← hpre, nesting_append, Option.bind_eq_some_iff] at hp
  obtain ⟨⟨q, e⟩, hq, -⟩ := hp
  have hdeep := nesting_add 1 hq
  exact ⟨q, e, hdeep⟩

/-! ## Out of step -/

/-- A scan and one that takes for a string what the other takes for no string. -/
inductive OutOfStep : Place → Place → Prop where
  | outside (p : Bool) : OutOfStep (.outside p) .inside
  | backslash : OutOfStep (.outside true) .escaped
  | inside (p : Bool) : OutOfStep .inside (.outside p)
  | escaped : OutOfStep .escaped (.outside true)

/-- Two scans that are out of step stay so, as long as both go on. -/
theorem OutOfStep.nest {p q p' q' : Place} {d e d' e' : Nat} {b : UInt8} (h : OutOfStep p q)
    (hp : nest p d b = some (p', d')) (hq : nest q e b = some (q', e')) : OutOfStep p' q' := by
  have hscalar : isScalarByte 0x5c = true := by decide
  cases h with
  | outside p =>
      by_cases hquote : b = 0x22
      · subst hquote
        cases p <;> simp_all [Json.nest]
        exact hp.1 ▸ hq.1 ▸ .inside false
      · by_cases hslash : b = 0x5c
        · subst hslash
          simp [Json.nest, isOpen, isClose, hscalar] at hp hq
          exact hp.1 ▸ hq.1 ▸ .backslash
        · simp only [Json.nest, if_neg hquote, if_neg hslash] at hp hq
          obtain ⟨rfl, -⟩ := Prod.mk.inj (Option.some.inj hq)
          split_ifs at hp <;> obtain ⟨rfl, -⟩ := Prod.mk.inj (Option.some.inj hp) <;>
            exact .outside _
  | backslash =>
      obtain ⟨rfl, -⟩ := Prod.mk.inj (Option.some.inj hq)
      by_cases hquote : b = 0x22
      · simp [Json.nest, hquote] at hp
      · simp only [Json.nest, if_neg hquote] at hp
        split_ifs at hp <;> obtain ⟨rfl, -⟩ := Prod.mk.inj (Option.some.inj hp) <;>
          exact .outside _
  | inside p =>
      by_cases hquote : b = 0x22
      · subst hquote
        cases p <;> simp_all [Json.nest]
        exact hp.1 ▸ hq.1 ▸ .outside false
      · by_cases hslash : b = 0x5c
        · subst hslash
          simp [Json.nest, isOpen, isClose, hscalar] at hp hq
          exact hp.1 ▸ hq.1 ▸ .escaped
        · simp only [Json.nest, if_neg hquote, if_neg hslash] at hp hq
          obtain ⟨rfl, -⟩ := Prod.mk.inj (Option.some.inj hp)
          split_ifs at hq <;> obtain ⟨rfl, -⟩ := Prod.mk.inj (Option.some.inj hq) <;>
            exact .inside _
  | escaped =>
      obtain ⟨rfl, -⟩ := Prod.mk.inj (Option.some.inj hp)
      by_cases hquote : b = 0x22
      · simp [Json.nest, hquote] at hq
      · simp only [Json.nest, if_neg hquote] at hq
        split_ifs at hq <;> obtain ⟨rfl, -⟩ := Prod.mk.inj (Option.some.inj hq) <;>
          exact .inside _

theorem OutOfStep.nesting {p q p' q' : Place} {d e d' e' : Nat} {s : List UInt8}
    (h : OutOfStep p q) (hp : nesting p d s = some (p', d')) (hq : nesting q e s = some (q', e')) :
    OutOfStep p' q' := by
  induction s generalizing p q d e with
  | nil =>
      obtain ⟨rfl, -⟩ := Prod.mk.inj (Option.some.inj hp)
      obtain ⟨rfl, -⟩ := Prod.mk.inj (Option.some.inj hq)
      exact h
  | cons b s ih =>
      rw [nesting_cons, Option.bind_eq_some_iff] at hp hq
      obtain ⟨⟨p₁, d₁⟩, hp₁, hp⟩ := hp
      obtain ⟨⟨q₁, e₁⟩, hq₁, hq⟩ := hq
      exact ih (h.nest hp₁ hq₁) hp hq

/-! ## Texts that were cut off -/

theorem Derives.ne_nil {v : List UInt8} (h : Derives .value v) : v ≠ [] := by
  cases h with
  | scalar hne => exact hne
  | string | emptyArray | array | emptyObject | object => exact List.cons_ne_nil _ _

/-- Behind the beginning of an object, an object does not end a value. -/
theorem nesting_cut {s t b : List UInt8} (ha : Derives .value (0x7b :: (s ++ t))) (ht : t ≠ [])
    (hb : Derives .value (0x7b :: b)) (p : Bool) :
    nesting (.outside false) 0 (0x7b :: (s ++ 0x7b :: b)) ≠ some (.outside p, 0) := by
  intro hglued
  obtain ⟨q, d, hs⟩ := nesting_object_prefix ha ht
  rw [← List.cons_append, nesting_append, hs, Option.bind_some] at hglued
  obtain ⟨p', hb'⟩ := nesting_derives hb 0
  have hopen : nest (.outside false) 0 0x7b = some (.outside false, 1) := rfl
  have hb'' : nesting (.outside false) 1 b = some (.outside p', 0) := by
    rw [nesting_cons, hopen] at hb'
    exact hb'
  cases q with
  | outside p₀ =>
      have hstep : nest (.outside p₀) (d + 1) 0x7b = some (.outside false, 1 + (d + 1)) := by
        rw [Nat.add_comm 1]
        rfl
      have hdeep := nesting_add (d + 1) hb''
      rw [nesting_cons, hstep] at hglued
      cases hdeep.symm.trans hglued
  | inside => cases (OutOfStep.outside false).nesting hb' hglued
  | escaped =>
      rw [nesting_cons] at hglued
      cases (OutOfStep.outside false).nesting hb'' hglued

/-- The beginning of an object, or all of it, and an object behind it are not a
JSON text. -/
theorem not_derives_cut {s t b w v w' : List UInt8} (ha : Derives .value (0x7b :: (s ++ t)))
    (hb : Derives .value (0x7b :: b)) (hw : Ws w) (hw' : Ws w') (hv : Derives .value v) :
    0x7b :: (s ++ 0x7b :: b) ≠ w ++ (v ++ w') := by
  intro heq
  have hnot : isWs 0x7b = false := by decide
  obtain rfl : w = [] := by
    cases w with
    | nil => rfl
    | cons c w =>
        obtain rfl := (List.cons.inj heq).1
        exact absurd (hw _ List.mem_cons_self) (by simp [hnot])
  obtain ⟨c, v', rfl⟩ := List.exists_cons_of_ne_nil hv.ne_nil
  obtain ⟨rfl, hrest⟩ := List.cons.inj heq
  have hsplit : s ++ 0x7b :: b = v' ++ w' := hrest
  by_cases ht : t = []
  · subst ht
    rcases List.append_eq_append_iff.mp hsplit with ⟨m, rfl, hm⟩ | ⟨m, rfl, hm⟩
    · by_cases hnil : m = []
      · subst hnil
        have hmem : 0x7b ∈ [] ++ w' := hm ▸ List.mem_cons_self
        exact absurd (hw' 0x7b hmem) (by simp [hnot])
      · obtain ⟨p, d, hdeep⟩ := nesting_object_prefix hv hnil
        obtain ⟨q, hlevel⟩ := nesting_derives ha 0
        rw [List.append_nil, hdeep] at hlevel
        cases hlevel
    · exact absurd (hw' 0x7b (hm ▸ List.mem_append_right m List.mem_cons_self)) (by simp [hnot])
  · obtain ⟨p, hp⟩ := nesting_derives hv 0
    obtain ⟨p', hp', -⟩ := nesting_ws hw' p 0
    refine nesting_cut ha ht hb p' ?_
    rw [hsplit, ← List.cons_append, nesting_append, hp]
    exact hp'

end Foundation.Json
