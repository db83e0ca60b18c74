import Mathlib.Data.List.TakeWhile
import FrankenSnowflake.Foundation.Json

/-!
# Reading JSON

A reader of JSON texts: literals, strings with their escapes, numbers of the
grammar, arrays and objects, with whitespace between them.  It keeps an integer
exactly, and any other number as it is written.
-/

namespace Foundation.JsonRead

/-- What a JSON text says. -/
inductive Doc where
  | null
  | bool (b : Bool)
  | integer (n : Int)
  /-- A number with a fraction or an exponent. -/
  | decimal (text : List Char)
  | string (s : List Char)
  | array (items : List Doc)
  | object (members : List (List Char × Doc))

def isWs (c : Char) : Bool := c = ' ' || c = '\t' || c = '\n' || c = '\r'

def skipWs (s : List Char) : List Char := s.dropWhile isWs

/-! ## Strings -/

def hexValue (c : Char) : Option Nat :=
  if c.isDigit then some (c.toNat - '0'.toNat)
  else if 'a' ≤ c ∧ c ≤ 'f' then some (c.toNat - 'a'.toNat + 10)
  else if 'A' ≤ c ∧ c ≤ 'F' then some (c.toNat - 'A'.toNat + 10)
  else none

def hex4 : List Char → Option (Nat × List Char)
  | a :: b :: c :: d :: s => do
      return ((((← hexValue a) * 16 + (← hexValue b)) * 16 + (← hexValue c)) * 16 + (← hexValue d), s)
  | _ => none

/-- A code unit, and with a high surrogate the low one behind it. -/
def readUnicode (s : List Char) : Option (Char × List Char) := do
  let (unit, s) ← hex4 s
  if Json.isLowSurrogate unit then none
  else if Json.isHighSurrogate unit then
    match s with
    | '\\' :: 'u' :: s =>
        let (low, s) ← hex4 s
        if Json.isLowSurrogate low then some (Char.ofNat (Json.pairScalar unit low), s) else none
    | _ => none
  else some (Char.ofNat unit, s)

/-- An escape, behind its backslash. -/
def readEscape : List Char → Option (Char × List Char)
  | [] => none
  | c :: s =>
      if c = '"' ∨ c = '\\' ∨ c = '/' then some (c, s)
      else if c = 'b' then some ('\x08', s)
      else if c = 'f' then some ('\x0c', s)
      else if c = 'n' then some ('\n', s)
      else if c = 'r' then some ('\r', s)
      else if c = 't' then some ('\t', s)
      else if c = 'u' then readUnicode s
      else none

/-- A character of a string. -/
def readChar : List Char → Option (Char × List Char)
  | [] => none
  | c :: s =>
      if c = '\\' then readEscape s
      else if c = '"' ∨ c.toNat < 0x20 then none
      else some (c, s)

/-- The characters of a string up to its closing quote. -/
def readChars : Nat → List Char → Option (List Char × List Char)
  | 0, _ => none
  | fuel + 1, s =>
      if s.head? = some '"' then some ([], s.tail)
      else do
        let (c, s) ← readChar s
        let (cs, s) ← readChars fuel s
        return (c :: cs, s)

/-- A string, behind its opening quote. -/
def readString (s : List Char) : Option (List Char × List Char) := readChars s.length s

/-! ## Numbers -/

def readDigits (s : List Char) : Option (List Char × List Char) :=
  if s.takeWhile Char.isDigit = [] then none
  else some (s.takeWhile Char.isDigit, s.dropWhile Char.isDigit)

/-- The fraction of a number, if there is one. -/
def readFraction (s : List Char) : Option (List Char × List Char) :=
  match s with
  | '.' :: s => (readDigits s).map fun (digits, s) ↦ ('.' :: digits, s)
  | s => some ([], s)

/-- The exponent of a number, if there is one. -/
def readExponent (s : List Char) : Option (List Char × List Char) :=
  match s with
  | [] => some ([], [])
  | c :: rest =>
      if c = 'e' ∨ c = 'E' then
        match rest with
        | '+' :: rest => (readDigits rest).map fun (digits, s) ↦ (c :: '+' :: digits, s)
        | '-' :: rest => (readDigits rest).map fun (digits, s) ↦ (c :: '-' :: digits, s)
        | rest => (readDigits rest).map fun (digits, s) ↦ (c :: digits, s)
      else some ([], s)

/-- A number without its sign; no zero stands in front of other digits. -/
def readUnsigned (negative : Bool) (s : List Char) : Option (Doc × List Char) := do
  let (digits, s) ← readDigits s
  if digits.head? = some '0' ∧ digits ≠ ['0'] then none
  else
    let (fraction, s) ← readFraction s
    let (exponent, s) ← readExponent s
    if fraction = [] ∧ exponent = [] then
      let n := Nat.ofDigitChars 10 digits 0
      return (.integer (if negative then -n else n), s)
    else
      let sign := if negative then ['-'] else []
      return (.decimal (sign ++ digits ++ fraction ++ exponent), s)

def readNumber (s : List Char) : Option (Doc × List Char) :=
  match s with
  | '-' :: s => readUnsigned true s
  | s => readUnsigned false s

/-! ## Values -/

/-- A character at the front of a text. -/
def expect (c : Char) (s : List Char) : Option (List Char) :=
  if s.head? = some c then some s.tail else none

def readLiteral (word : List Char) (d : Doc) (s : List Char) : Option (Doc × List Char) :=
  if word.isPrefixOf s then some (d, s.drop word.length) else none

mutual

/-- A value at the front of a text. -/
def readValue : Nat → List Char → Option (Doc × List Char)
  | 0, _ => none
  | _ + 1, [] => none
  | fuel + 1, c :: s =>
      if c = '"' then (readString s).map fun (cs, s) ↦ (.string cs, s)
      else if c = '[' then
        if (skipWs s).head? = some ']' then some (.array [], (skipWs s).tail)
        else (readElements fuel (skipWs s)).map fun (items, s) ↦ (.array items, s)
      else if c = '\x7b' then
        if (skipWs s).head? = some '\x7d' then some (.object [], (skipWs s).tail)
        else (readMembers fuel (skipWs s)).map fun (members, s) ↦ (.object members, s)
      else if c = 'n' then readLiteral ['u', 'l', 'l'] .null s
      else if c = 't' then readLiteral ['r', 'u', 'e'] (.bool true) s
      else if c = 'f' then readLiteral ['a', 'l', 's', 'e'] (.bool false) s
      else readNumber (c :: s)

/-- The elements of an array up to its bracket. -/
def readElements : Nat → List Char → Option (List Doc × List Char)
  | 0, _ => none
  | fuel + 1, s => do
      let (item, s) ← readValue fuel s
      match skipWs s with
      | [] => none
      | c :: s =>
          if c = ']' then some ([item], s)
          else if c = ',' then do
            let (items, s) ← readElements fuel (skipWs s)
            return (item :: items, s)
          else none

/-- The members of an object up to its brace. -/
def readMembers : Nat → List Char → Option (List (List Char × Doc) × List Char)
  | 0, _ => none
  | fuel + 1, s => do
      let (key, s) ← readString (← expect '"' s)
      let (value, s) ← readValue fuel (skipWs (← expect ':' (skipWs s)))
      match skipWs s with
      | [] => none
      | c :: s =>
          if c = '\x7d' then some ([(key, value)], s)
          else if c = ',' then do
            let (members, s) ← readMembers fuel (skipWs s)
            return ((key, value) :: members, s)
          else none

end

/-- A whole text. -/
def read (s : List Char) : Option Doc := do
  let (d, s) ← readValue s.length (skipWs s)
  if skipWs s = [] then some d else none

/-! ## Strings that are read -/

theorem readChars_flatMap {e : Char → List Char}
    (he : ∀ c rest, readChar (e c ++ rest) = some (c, rest)) (s rest : List Char) :
    ∀ {fuel : Nat}, s.length < fuel →
      readChars fuel (s.flatMap e ++ '"' :: rest) = some (s, rest) := by
  induction s with
  | nil =>
      intro fuel hfuel
      obtain ⟨fuel, rfl⟩ := Nat.exists_eq_succ_of_ne_zero (Nat.ne_of_gt hfuel)
      rfl
  | cons c s ih =>
      intro fuel hfuel
      obtain ⟨fuel, rfl⟩ := Nat.exists_eq_succ_of_ne_zero (Nat.ne_of_gt (Nat.zero_lt_of_lt hfuel))
      have hchar := he c (s.flatMap e ++ '"' :: rest)
      have hhead : (e c ++ (s.flatMap e ++ '"' :: rest)).head? ≠ some '"' := fun h ↦ by
        cases ht : e c ++ (s.flatMap e ++ '"' :: rest) with
        | nil => rw [ht] at h; cases h
        | cons d t =>
            rw [ht] at h hchar
            cases h
            cases hchar
      rw [List.flatMap_cons, List.append_assoc, readChars, if_neg hhead, hchar]
      simp only [Option.bind_eq_bind, Option.bind_some, ih (Nat.lt_of_succ_lt_succ hfuel)]
      rfl

/-- A string whose characters are spelled so that each is read. -/
theorem readString_flatMap {e : Char → List Char}
    (he : ∀ c rest, readChar (e c ++ rest) = some (c, rest)) (s rest : List Char) :
    readString (s.flatMap e ++ '"' :: rest) = some (s, rest) := by
  refine readChars_flatMap he s rest ?_
  have hne : ∀ c, 1 ≤ (e c).length := fun c ↦ by
    cases h : e c with
    | nil =>
        have hchar := he c []
        rw [h] at hchar
        cases hchar
    | cons d t => exact Nat.succ_le_succ (Nat.zero_le _)
  have hlength : s.length ≤ (s.flatMap e).length := by
    induction s with
    | nil => exact Nat.zero_le _
    | cons c s ih =>
        rw [List.flatMap_cons, List.length_append, List.length_cons, Nat.add_comm s.length]
        exact Nat.add_le_add (hne c) ih
  rw [List.length_append, List.length_cons]
  omega

/-! ## Numbers that are read -/

/-- A text that does not go on with a number. -/
def NumberEnd (s : List Char) : Prop :=
  ∀ c ∈ s.head?, c.isDigit = false ∧ c ≠ '.' ∧ c ≠ 'e' ∧ c ≠ 'E'

theorem readDigits_append {digits rest : List Char} (hne : digits ≠ [])
    (hdigits : ∀ c ∈ digits, c.isDigit) (hrest : ∀ c ∈ rest.head?, c.isDigit = false) :
    readDigits (digits ++ rest) = some (digits, rest) := by
  have htake : (digits ++ rest).takeWhile Char.isDigit = digits := by
    rw [List.takeWhile_append_of_pos hdigits]
    cases rest with
    | nil => exact List.append_nil digits
    | cons c rest =>
        rw [List.takeWhile_cons_of_neg (by rw [hrest c rfl]; exact Bool.false_ne_true),
          List.append_nil]
  have hdrop : (digits ++ rest).dropWhile Char.isDigit = rest := by
    have hsplit := List.takeWhile_append_dropWhile (p := Char.isDigit) (l := digits ++ rest)
    rw [htake] at hsplit
    exact List.append_cancel_left hsplit
  rw [readDigits, htake, hdrop, if_neg hne]

/-- No digits start with a zero but those of zero. -/
theorem toDigits_head (n : Nat) :
    (Nat.toDigits 10 n).head? = some '0' → Nat.toDigits 10 n = ['0'] := by
  induction n using Nat.strong_induction_on with
  | _ n ih =>
      intro h
      by_cases hn : n < 10
      · rw [Nat.toDigits_of_lt_base hn] at h ⊢
        exact congrArg (· :: []) (Option.some.inj h)
      · rw [Nat.toDigits_of_base_le (by decide) (Nat.not_lt.mp hn)] at h
        rw [List.head?_append_of_ne_nil _ Nat.toDigits_ne_nil] at h
        have hzero := ih (n / 10) (by omega) h
        have hvalue := congrArg (Nat.ofDigitChars 10 · 0) hzero
        simp only [Nat.ofDigitChars_ten_toDigits] at hvalue
        have hvalue' : n / 10 = 0 := hvalue
        omega

theorem readUnsigned_toDigits (negative : Bool) (n : Nat) {rest : List Char}
    (hrest : NumberEnd rest) :
    readUnsigned negative (Nat.toDigits 10 n ++ rest) =
      some (.integer (if negative then -n else n), rest) := by
  have hdigits : ∀ c ∈ Nat.toDigits 10 n, c.isDigit := fun c hc ↦
    Nat.isDigit_of_mem_toDigits (by decide) (by decide) hc
  have hread := readDigits_append Nat.toDigits_ne_nil hdigits fun c hc ↦ (hrest c hc).1
  have hfraction : readFraction rest = some ([], rest) := by
    unfold readFraction
    split
    · exact absurd rfl (hrest '.' rfl).2.1
    · rfl
  have hexponent : readExponent rest = some ([], rest) := by
    cases rest with
    | nil => rfl
    | cons c rest =>
        obtain ⟨-, -, he, hE⟩ := hrest c rfl
        exact if_neg (not_or.mpr ⟨he, hE⟩)
  rw [readUnsigned, hread]
  simp only [Option.bind_eq_bind, Option.bind_some]
  rw [if_neg (fun h ↦ h.2 (toDigits_head n h.1)), hfraction, Option.bind_some, hexponent,
    Option.bind_some, Nat.ofDigitChars_ten_toDigits]
  rfl

/-! ## Values that are read -/

/-- A text that is read as a value wherever it stands. -/
structure Reads (t : List Char) (d : Doc) : Prop where
  starts : ∃ c s, t = c :: s ∧ isWs c = false ∧ c ≠ ']' ∧ c ≠ '\x7d'
  reads : ∀ fuel rest, t.length ≤ fuel → NumberEnd rest →
    readValue fuel (t ++ rest) = some (d, rest)

theorem skipWs_of_not_isWs {c : Char} (h : isWs c = false) (s : List Char) :
    skipWs (c :: s) = c :: s :=
  List.dropWhile_cons_of_neg (by rw [h]; exact Bool.false_ne_true)

theorem Reads.skipWs_append {t : List Char} {d : Doc} (h : Reads t d) (rest : List Char) :
    skipWs (t ++ rest) = t ++ rest := by
  obtain ⟨c, s, rfl, hws, -⟩ := h.starts
  exact skipWs_of_not_isWs hws _

/-- A rule of the reader for a first character. -/
theorem Reads.of_cons {c : Char} {s : List Char} {d : Doc} (hws : isWs c = false)
    (hbracket : c ≠ ']') (hbrace : c ≠ '\x7d')
    (h : ∀ fuel rest, s.length ≤ fuel → NumberEnd rest →
      readValue (fuel + 1) (c :: (s ++ rest)) = some (d, rest)) : Reads (c :: s) d where
  starts := ⟨c, s, rfl, hws, hbracket, hbrace⟩
  reads fuel rest hfuel hrest := by
    cases fuel with
    | zero => exact absurd hfuel (Nat.not_succ_le_zero _)
    | succ fuel => exact h fuel rest (Nat.le_of_succ_le_succ hfuel) hrest

theorem readLiteral_append (word : List Char) (d : Doc) (rest : List Char) :
    readLiteral word d (word ++ rest) = some (d, rest) := by
  rw [readLiteral, if_pos (List.isPrefixOf_iff_prefix.mpr (List.prefix_append word rest)),
    List.drop_left]

theorem Reads.null : Reads ['n', 'u', 'l', 'l'] .null :=
  .of_cons (by decide) (by decide) (by decide) fun _ rest _ _ ↦
    readLiteral_append ['u', 'l', 'l'] .null rest

theorem Reads.boolTrue : Reads ['t', 'r', 'u', 'e'] (.bool true) :=
  .of_cons (by decide) (by decide) (by decide) fun _ rest _ _ ↦
    readLiteral_append ['r', 'u', 'e'] (.bool true) rest

theorem Reads.boolFalse : Reads ['f', 'a', 'l', 's', 'e'] (.bool false) :=
  .of_cons (by decide) (by decide) (by decide) fun _ rest _ _ ↦
    readLiteral_append ['a', 'l', 's', 'e'] (.bool false) rest

theorem Reads.string {e : Char → List Char}
    (he : ∀ c rest, readChar (e c ++ rest) = some (c, rest)) (s : List Char) :
    Reads ('"' :: (s.flatMap e ++ ['"'])) (.string s) := by
  refine .of_cons (by decide) (by decide) (by decide) fun fuel rest _ _ ↦ ?_
  rw [readValue, if_pos rfl, List.append_assoc, List.singleton_append, readString_flatMap he]
  rfl

theorem readValue_digit {fuel : Nat} {c : Char} {s : List Char} (hc : c.isDigit ∨ c = '-') :
    readValue (fuel + 1) (c :: s) = readNumber (c :: s) := by
  have hne : ∀ d : Char, d.isDigit = false → d ≠ '-' → c ≠ d := by
    rintro d hd hdash rfl
    rcases hc with hc | hc
    · rw [hd] at hc
      exact Bool.false_ne_true hc
    · exact hdash hc
  rw [readValue, if_neg (hne _ (by decide) (by decide)), if_neg (hne _ (by decide) (by decide)),
    if_neg (hne _ (by decide) (by decide)), if_neg (hne _ (by decide) (by decide)),
    if_neg (hne _ (by decide) (by decide)), if_neg (hne _ (by decide) (by decide))]

theorem Reads.natural (n : Nat) : Reads (Nat.toDigits 10 n) (.integer n) := by
  cases h : Nat.toDigits 10 n with
  | nil => exact absurd h Nat.toDigits_ne_nil
  | cons c s =>
      have hc : c.isDigit :=
        Nat.isDigit_of_mem_toDigits (by decide) (by decide) (h ▸ List.mem_cons_self)
      have hne : ∀ d : Char, d.isDigit = false → c ≠ d := by
        rintro d hd rfl
        rw [hd] at hc
        exact Bool.false_ne_true hc
      refine .of_cons ?_ (hne _ (by decide)) (hne _ (by decide)) fun fuel rest _ hrest ↦ ?_
      · simp only [isWs, hne ' ' (by decide), hne '\t' (by decide), hne '\n' (by decide),
          hne '\r' (by decide), decide_false, Bool.or_false]
      · rw [readValue_digit (.inl hc)]
        have hread := readUnsigned_toDigits false n hrest
        rw [h] at hread
        unfold readNumber
        split
        · rename_i heq
          exact absurd (List.cons.inj heq).1 (hne '-' (by decide))
        · exact hread

theorem Reads.negative (n : Nat) : Reads ('-' :: Nat.toDigits 10 n) (.integer (-n)) := by
  refine .of_cons (by decide) (by decide) (by decide) fun fuel rest _ hrest ↦ ?_
  rw [readValue_digit (.inr rfl)]
  exact readUnsigned_toDigits true n hrest

/-- Texts with a comma in front of each but the first. -/
def separated (first : Bool) : List (List Char) → List Char
  | [] => []
  | t :: ts => (if first then [] else [',']) ++ (t ++ separated false ts)

theorem separated_false_cons (t : List Char) (ts : List (List Char)) :
    separated false (t :: ts) = ',' :: separated true (t :: ts) := rfl

/-- What follows an item ends a number. -/
theorem numberEnd_separated {c : Char} (hc : NumberEnd [c]) (ts : List (List Char))
    (rest : List Char) : NumberEnd (separated false ts ++ c :: rest) := by
  intro d hd
  cases ts with
  | nil =>
      rw [separated, List.nil_append] at hd
      exact hc d hd
  | cons t ts =>
      rw [separated_false_cons] at hd
      cases hd
      exact ⟨by decide, by decide, by decide, by decide⟩

theorem numberEnd_of_decide {c : Char}
    (h : (!c.isDigit && c ≠ '.' && c ≠ 'e' && c ≠ 'E') = true) : NumberEnd [c] := by
  intro d hd
  cases hd
  simpa [and_assoc] using h

theorem readElements_separated {ts : List (List Char)} {ds : List Doc}
    (h : List.Forall₂ Reads ts ds) (hne : ts ≠ []) (rest : List Char) : ∀ fuel,
      (separated true ts).length < fuel →
        readElements fuel (separated true ts ++ ']' :: rest) = some (ds, rest) := by
  induction h with
  | nil => exact absurd rfl hne
  | @cons t d ts ds ht hts ih =>
      intro fuel hfuel
      obtain ⟨fuel, rfl⟩ := Nat.exists_eq_succ_of_ne_zero (Nat.ne_of_gt (Nat.zero_lt_of_lt hfuel))
      rw [separated, if_pos rfl, List.nil_append, List.length_append] at hfuel
      have hread := ht.reads fuel (separated false ts ++ ']' :: rest) (by omega)
        (numberEnd_separated (numberEnd_of_decide (by decide)) ts rest)
      rw [separated, if_pos rfl, List.nil_append, List.append_assoc, readElements, hread]
      simp only [Option.bind_eq_bind, Option.bind_some]
      cases hts with
      | nil =>
          rw [separated, List.nil_append, skipWs_of_not_isWs (by decide)]
          exact if_pos rfl
      | @cons t' d' ts ds ht' hts =>
          rw [separated_false_cons, List.cons_append, skipWs_of_not_isWs (by decide)]
          have hskip : skipWs (separated true (t' :: ts) ++ ']' :: rest) =
              separated true (t' :: ts) ++ ']' :: rest := by
            rw [separated, if_pos rfl, List.nil_append, List.append_assoc, ht'.skipWs_append]
          rw [separated_false_cons, List.length_cons] at hfuel
          simp only [if_neg (by decide : ¬ ',' = ']'), if_pos, hskip,
            ih (List.cons_ne_nil _ _) fuel (by omega), Option.bind_some]
          rfl

theorem Reads.array {ts : List (List Char)} {ds : List Doc} (h : List.Forall₂ Reads ts ds) :
    Reads ('[' :: (separated true ts ++ [']'])) (.array ds) := by
  refine .of_cons (by decide) (by decide) (by decide) fun fuel rest hfuel _ ↦ ?_
  rw [List.length_append, List.length_singleton] at hfuel
  rw [List.append_assoc, List.singleton_append]
  cases h with
  | nil => rfl
  | @cons t d ts ds ht hts =>
      have hskip : skipWs (separated true (t :: ts) ++ ']' :: rest) =
          separated true (t :: ts) ++ ']' :: rest := by
        rw [separated, if_pos rfl, List.nil_append, List.append_assoc, ht.skipWs_append]
      have hhead : (separated true (t :: ts) ++ ']' :: rest).head? ≠ some ']' := by
        obtain ⟨c, s, rfl, -, hbracket, -⟩ := ht.starts
        exact fun h ↦ hbracket (Option.some.inj h)
      rw [readValue, if_neg (by decide), if_pos rfl, hskip, if_neg hhead,
        readElements_separated (.cons ht hts) (List.cons_ne_nil _ _) rest fuel (by omega)]
      rfl

/-- A text that is read as a member, with its key spelled by `e`. -/
def ReadsMember (e : Char → List Char) (t : List Char) (member : List Char × Doc) : Prop :=
  ∃ value, t = '"' :: (member.1.flatMap e ++ '"' :: ':' :: value) ∧ Reads value member.2

section Members

variable {e : Char → List Char} (he : ∀ c rest, readChar (e c ++ rest) = some (c, rest))
include he

theorem readMembers_separated {ts : List (List Char)} {ms : List (List Char × Doc)}
    (h : List.Forall₂ (ReadsMember e) ts ms) (hne : ts ≠ []) (rest : List Char) : ∀ fuel,
      (separated true ts).length < fuel →
        readMembers fuel (separated true ts ++ '\x7d' :: rest) = some (ms, rest) := by
  induction h with
  | nil => exact absurd rfl hne
  | @cons t m ts ms ht hts ih =>
      intro fuel hfuel
      obtain ⟨fuel, rfl⟩ := Nat.exists_eq_succ_of_ne_zero (Nat.ne_of_gt (Nat.zero_lt_of_lt hfuel))
      obtain ⟨value, rfl, hvalue⟩ := ht
      rw [separated, if_pos rfl, List.nil_append, List.length_append, List.length_cons,
        List.length_append, List.length_cons, List.length_cons] at hfuel
      have hread := hvalue.reads fuel (separated false ts ++ '\x7d' :: rest) (by omega)
        (numberEnd_separated (numberEnd_of_decide (by decide)) ts rest)
      have htext : separated true (('"' :: (m.1.flatMap e ++ '"' :: ':' :: value)) :: ts) ++
          '\x7d' :: rest = '"' :: (m.1.flatMap e ++ '"' :: ':' ::
            (value ++ (separated false ts ++ '\x7d' :: rest))) := by
        simp only [separated, if_pos, List.nil_append, List.cons_append, List.append_assoc]
      have hkey := readString_flatMap he m.1
        (':' :: (value ++ (separated false ts ++ '\x7d' :: rest)))
      rw [htext, readMembers]
      simp only [expect, List.head?_cons, if_pos, List.tail_cons, Option.bind_eq_bind,
        Option.bind_some, hkey, skipWs_of_not_isWs (show isWs ':' = false by decide),
        hvalue.skipWs_append, hread]
      cases hts with
      | nil =>
          rw [separated, List.nil_append, skipWs_of_not_isWs (by decide)]
          exact if_pos rfl
      | @cons t' m' ts ms ht' hts =>
          rw [separated_false_cons, List.cons_append, skipWs_of_not_isWs (by decide)]
          have hskip : skipWs (separated true (t' :: ts) ++ '\x7d' :: rest) =
              separated true (t' :: ts) ++ '\x7d' :: rest := by
            obtain ⟨value', rfl, -⟩ := ht'
            exact skipWs_of_not_isWs (by decide) _
          rw [separated_false_cons, List.length_cons] at hfuel
          simp only [if_neg (by decide : ¬ ',' = '\x7d'), if_pos, hskip,
            ih (List.cons_ne_nil _ _) fuel (by omega), Option.bind_some]
          rfl

theorem Reads.object {ts : List (List Char)} {ms : List (List Char × Doc)}
    (h : List.Forall₂ (ReadsMember e) ts ms) :
    Reads ('\x7b' :: (separated true ts ++ ['\x7d'])) (.object ms) := by
  refine .of_cons (by decide) (by decide) (by decide) fun fuel rest hfuel _ ↦ ?_
  rw [List.length_append, List.length_singleton] at hfuel
  rw [List.append_assoc, List.singleton_append]
  cases h with
  | nil => rfl
  | @cons t m ts ms ht hts =>
      have hskip : skipWs (separated true (t :: ts) ++ '\x7d' :: rest) =
          separated true (t :: ts) ++ '\x7d' :: rest := by
        obtain ⟨value, rfl, -⟩ := ht
        exact skipWs_of_not_isWs (by decide) _
      have hhead : (separated true (t :: ts) ++ '\x7d' :: rest).head? ≠ some '\x7d' := by
        obtain ⟨value, rfl, -⟩ := ht
        exact fun h ↦ absurd (Option.some.inj h) (by decide)
      rw [readValue, if_neg (by decide), if_neg (by decide), if_pos rfl, hskip, if_neg hhead,
        readMembers_separated he (.cons ht hts) (List.cons_ne_nil _ _) rest fuel (by omega)]
      rfl

end Members

/-- A text that is read as a value is read. -/
theorem Reads.read {t : List Char} {d : Doc} (h : Reads t d) : read t = some d := by
  have hskip := h.skipWs_append []
  have hread := h.reads t.length [] (Nat.le_refl _) nofun
  rw [List.append_nil] at hskip hread
  rw [JsonRead.read, hskip, hread]
  rfl

end Foundation.JsonRead
