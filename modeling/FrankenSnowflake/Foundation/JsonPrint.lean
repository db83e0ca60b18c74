import Mathlib.Tactic.IntervalCases
import FrankenSnowflake.Foundation.JsonObject

/-!
# Compact JSON

Values and their compact text: no whitespace, members in order, and in strings
an escape for the quote, the backslash and control characters.  The text of a
value is a JSON text, and it determines the value.
-/

namespace Foundation.Json

mutual

/-- A value without arrays; numbers are natural. -/
inductive Value where
  | null
  | bool (b : Bool)
  | number (n : Nat)
  | string (s : List Char)
  | object (ms : Members)

/-- The members of an object, in order. -/
inductive Members where
  | nil
  | cons (key : List Char) (v : Value) (ms : Members)

end

/-- A digit of an escape. -/
def hexDigit (n : Nat) : Char := Nat.digitChar n

/-- A character between the quotes of a string. -/
def escapeChar (c : Char) : List Char :=
  if c = '"' then ['\\', '"']
  else if c = '\\' then ['\\', '\\']
  else if c = '\x08' then ['\\', 'b']
  else if c = '\x0c' then ['\\', 'f']
  else if c = '\n' then ['\\', 'n']
  else if c = '\r' then ['\\', 'r']
  else if c = '\t' then ['\\', 't']
  else if c.toNat < 0x20 then
    ['\\', 'u', '0', '0', hexDigit (c.toNat / 16), hexDigit (c.toNat % 16)]
  else [c]

/-- A string with its quotes. -/
def quote (s : List Char) : List Char := '"' :: (s.flatMap escapeChar ++ ['"'])

mutual

/-- The compact text of a value. -/
def print : Value → List Char
  | .null => ['n', 'u', 'l', 'l']
  | .bool true => ['t', 'r', 'u', 'e']
  | .bool false => ['f', 'a', 'l', 's', 'e']
  | .number n => Nat.toDigits 10 n
  | .string s => quote s
  | .object ms => '{' :: printMembers true ms

/-- The text of members up to the closing brace. -/
def printMembers (first : Bool) : Members → List Char
  | .nil => ['}']
  | .cons key v ms =>
      (if first then [] else [',']) ++ (quote key ++ ':' :: (print v ++ printMembers false ms))

end

/-! ## Strings -/

/-- Read a character of a string. -/
def unescape : List Char → Option (Char × List Char)
  | '\\' :: 'u' :: _ :: _ :: h :: l :: s => some (Char.ofNat
      ((if h = '1' then 16 else 0) +
        (if l.isDigit then l.toNat - '0'.toNat else l.toNat - 'a'.toNat + 10)), s)
  | '\\' :: c :: s =>
      some (if c = 'b' then '\x08' else if c = 'f' then '\x0c' else if c = 'n' then '\n'
        else if c = 'r' then '\r' else if c = 't' then '\t' else c, s)
  | c :: s => some (c, s)
  | [] => none

theorem unescape_control : ∀ n < 0x20, ∀ s,
    unescape (escapeChar (Char.ofNat n) ++ s) = some (Char.ofNat n, s) := by
  intro n hn s
  interval_cases n <;> rfl

theorem unescape_escapeChar (c : Char) (s : List Char) :
    unescape (escapeChar c ++ s) = some (c, s) := by
  by_cases hcontrol : c.toNat < 0x20
  · have h := unescape_control c.toNat hcontrol s
    rwa [Char.ofNat_toNat] at h
  · by_cases hquote : c = '"'
    · subst hquote
      rfl
    · by_cases hslash : c = '\\'
      · subst hslash
        rfl
      · have hne : ∀ d : Char, d.toNat < 0x20 → c ≠ d := by
          rintro d hd rfl
          exact hcontrol hd
        have hescape : escapeChar c = [c] := by
          simp only [escapeChar, if_neg hquote, if_neg hslash, if_neg hcontrol,
            if_neg (hne '\x08' (by decide)), if_neg (hne '\x0c' (by decide)),
            if_neg (hne '\n' (by decide)), if_neg (hne '\r' (by decide)),
            if_neg (hne '\t' (by decide))]
        rw [hescape, List.singleton_append, unescape.eq_def]
        split
        next heq => exact absurd (List.cons.inj heq).1 hslash
        next heq => exact absurd (List.cons.inj heq).1 hslash
        next heq => rw [(List.cons.inj heq).1, (List.cons.inj heq).2]
        next heq => cases heq

theorem escapeChar_head (c : Char) : ∃ d s, escapeChar c = d :: s ∧ d ≠ '"' := by
  unfold escapeChar
  split_ifs with h
  all_goals first | exact ⟨_, _, rfl, by decide⟩ | exact ⟨_, _, rfl, h⟩

/-- A string ends where its text says. -/
theorem quote_append_inj {s s' x x' : List Char} (h : quote s ++ x = quote s' ++ x') :
    s = s' ∧ x = x' := by
  have hbody : s.flatMap escapeChar ++ '"' :: x = s'.flatMap escapeChar ++ '"' :: x' := by
    simpa [quote] using h
  clear h
  induction s generalizing s' with
  | nil =>
      cases s' with
      | nil => exact ⟨rfl, (List.cons.inj hbody).2⟩
      | cons c s' =>
          obtain ⟨d, e, he, hd⟩ := escapeChar_head c
          rw [List.flatMap_cons, he] at hbody
          exact absurd (List.cons.inj hbody).1.symm hd
  | cons c s ih =>
      cases s' with
      | nil =>
          obtain ⟨d, e, he, hd⟩ := escapeChar_head c
          rw [List.flatMap_cons, he] at hbody
          exact absurd (List.cons.inj hbody).1 hd
      | cons c' s' =>
          rw [List.flatMap_cons, List.flatMap_cons, List.append_assoc, List.append_assoc] at hbody
          have hread := congrArg unescape hbody
          rw [unescape_escapeChar, unescape_escapeChar] at hread
          obtain ⟨rfl, hrest⟩ := Prod.mk.inj (Option.some.inj hread)
          obtain ⟨rfl, hx⟩ := ih hrest
          exact ⟨rfl, hx⟩

/-! ## Values -/

/-- What may stand behind a number: nothing that goes on with it. -/
def EndsNumber (x : List Char) : Prop := ∀ c ∈ x.head?, c.isDigit = false

theorem toDigits_append_inj {n n' : Nat} {x x' : List Char} (hx : EndsNumber x)
    (hx' : EndsNumber x') (h : Nat.toDigits 10 n ++ x = Nat.toDigits 10 n' ++ x') :
    n = n' ∧ x = x' := by
  have hdigits : ∀ n, ∀ c ∈ Nat.toDigits 10 n, c.isDigit = true :=
    fun n c hc ↦ Nat.isDigit_of_mem_toDigits (by decide) (by decide) hc
  have htake : ∀ {n : Nat} {x : List Char}, EndsNumber x →
      (Nat.toDigits 10 n ++ x).takeWhile Char.isDigit = Nat.toDigits 10 n := by
    intro n x hx
    rw [List.takeWhile_append_of_pos (hdigits n)]
    cases x with
    | nil => simp
    | cons c x => simp [hx c rfl]
  have hn : Nat.toDigits 10 n = Nat.toDigits 10 n' :=
    calc
      _ = (Nat.toDigits 10 n ++ x).takeWhile Char.isDigit := (htake hx).symm
      _ = (Nat.toDigits 10 n' ++ x').takeWhile Char.isDigit := by rw [h]
      _ = _ := htake hx'
  refine ⟨?_, List.append_cancel_left (hn ▸ h)⟩
  have hread := congrArg (Nat.ofDigitChars 10 · 0) hn
  simpa only [Nat.ofDigitChars_ten_toDigits] using hread

theorem endsNumber_printMembers (ms : Members) (x : List Char) :
    EndsNumber (printMembers false ms ++ x) := by
  intro c hc
  cases ms with
  | nil =>
      obtain rfl : '}' = c := Option.some.inj hc
      decide
  | cons =>
      obtain rfl : ',' = c := Option.some.inj hc
      decide

/-- The constructors of a value. -/
inductive Kind where
  | null
  | bool
  | number
  | string
  | object
deriving DecidableEq

def Value.kind : Value → Kind
  | .null => .null
  | .bool _ => .bool
  | .number _ => .number
  | .string _ => .string
  | .object _ => .object

/-- The kind of a value whose text begins with a character. -/
def kindOfHead (c : Char) : Kind :=
  if c = 'n' then .null
  else if c = 't' ∨ c = 'f' then .bool
  else if c.isDigit then .number
  else if c = '"' then .string
  else .object

theorem kindOfHead_print (v : Value) : ∃ c s, print v = c :: s ∧ kindOfHead c = v.kind := by
  cases v with
  | null => exact ⟨_, _, rfl, by decide⟩
  | bool b => cases b <;> exact ⟨_, _, rfl, by decide⟩
  | number n =>
      obtain ⟨c, s, hs⟩ := List.exists_cons_of_ne_nil (Nat.toDigits_ne_nil (n := n) (b := 10))
      have hc : c.isDigit = true :=
        Nat.isDigit_of_mem_toDigits (by decide) (by decide) (hs ▸ List.mem_cons_self)
      have hne : ∀ d : Char, d.isDigit = false → c ≠ d := by
        rintro d hd rfl
        simp [hc] at hd
      refine ⟨c, s, hs, ?_⟩
      simp [kindOfHead, Value.kind, hc, hne 'n' (by decide), hne 't' (by decide),
        hne 'f' (by decide)]
  | string s => exact ⟨_, _, rfl, rfl⟩
  | object ms => exact ⟨_, _, rfl, rfl⟩

/-- Values whose texts begin alike are of one kind. -/
theorem kind_eq_of_print {v v' : Value} {x x' : List Char} (h : print v ++ x = print v' ++ x') :
    v.kind = v'.kind := by
  obtain ⟨c, s, hs, hc⟩ := kindOfHead_print v
  obtain ⟨c', s', hs', hc'⟩ := kindOfHead_print v'
  rw [hs, hs'] at h
  rw [← hc, ← hc', (List.cons.inj h).1]

mutual

/-- A value ends where its text says. -/
theorem print_append_inj : ∀ {v v' : Value} {x x' : List Char}, EndsNumber x → EndsNumber x' →
    print v ++ x = print v' ++ x' → v = v' ∧ x = x'
  | .null, v', x, x', _, _, h => by
      cases v' with
      | null => exact ⟨rfl, List.append_cancel_left h⟩
      | bool | number | string | object => cases kind_eq_of_print h
  | .bool b, v', x, x', _, _, h => by
      cases v' with
      | bool b' =>
          cases b <;> cases b'
          · exact ⟨rfl, List.append_cancel_left h⟩
          · exact absurd (List.cons.inj h).1 (by decide)
          · exact absurd (List.cons.inj h).1 (by decide)
          · exact ⟨rfl, List.append_cancel_left h⟩
      | null | number | string | object => cases kind_eq_of_print h
  | .number n, v', x, x', hx, hx', h => by
      cases v' with
      | number n' =>
          obtain ⟨rfl, rfl⟩ := toDigits_append_inj hx hx' h
          exact ⟨rfl, rfl⟩
      | null | bool | string | object => cases kind_eq_of_print h
  | .string s, v', x, x', _, _, h => by
      cases v' with
      | string s' =>
          obtain ⟨rfl, rfl⟩ := quote_append_inj h
          exact ⟨rfl, rfl⟩
      | null | bool | number | object => cases kind_eq_of_print h
  | .object ms, v', x, x', _, _, h => by
      cases v' with
      | object ms' =>
          obtain ⟨rfl, rfl⟩ := printMembers_append_inj (List.cons.inj h).2
          exact ⟨rfl, rfl⟩
      | null | bool | number | string => cases kind_eq_of_print h

theorem printMembers_append_inj : ∀ {first : Bool} {ms ms' : Members} {x x' : List Char},
    printMembers first ms ++ x = printMembers first ms' ++ x' → ms = ms' ∧ x = x'
  | first, .nil, ms', x, x', h => by
      cases ms' with
      | nil => exact ⟨rfl, List.append_cancel_left h⟩
      | cons => cases first <;> exact absurd (List.cons.inj h).1 (by decide)
  | first, .cons key v ms, ms', x, x', h => by
      cases ms' with
      | nil => cases first <;> exact absurd (List.cons.inj h).1 (by decide)
      | cons key' v' ms' =>
          simp only [printMembers, List.append_assoc] at h
          obtain ⟨rfl, hrest⟩ := quote_append_inj (List.append_cancel_left h)
          have hvalue : print v ++ (printMembers false ms ++ x) =
              print v' ++ (printMembers false ms' ++ x') := by
            simpa using hrest
          obtain ⟨rfl, hms⟩ := print_append_inj (endsNumber_printMembers ms x)
            (endsNumber_printMembers ms' x') hvalue
          obtain ⟨rfl, rfl⟩ := printMembers_append_inj hms
          exact ⟨rfl, rfl⟩

end

theorem print_injective : Function.Injective print := by
  intro v v' h
  have hnil : EndsNumber [] := nofun
  have happend : print v ++ [] = print v' ++ [] := by rw [h]
  exact (print_append_inj hnil hnil happend).1

/-! ## JSON texts -/

open Utf8

/-- Bytes that stand for themselves in a string. -/
theorem Quoted.append_raw {bs t : List UInt8} (h : ∀ b ∈ bs, b ≠ 0x22 ∧ b ≠ 0x5c)
    (ht : Quoted t) : Quoted (bs ++ t) := by
  induction bs with
  | nil => exact ht
  | cons b bs ih =>
      obtain ⟨⟨hquote, hslash⟩, hbs⟩ := List.forall_mem_cons.mp h
      exact .raw hquote hslash (ih hbs)

theorem raw_encode {s : List Char} (hquote : '"' ∉ s) (hslash : '\\' ∉ s) :
    ∀ b ∈ encode s, b ≠ 0x22 ∧ b ≠ 0x5c := by
  intro b hb
  constructor
  · rintro rfl
    exact hquote ((mem_encode_ascii (by decide)).mp hb)
  · rintro rfl
    exact hslash ((mem_encode_ascii (by decide)).mp hb)

theorem hexDigit_ne : ∀ n < 16, hexDigit n ≠ '"' ∧ hexDigit n ≠ '\\' := by decide

theorem quoted_escapeChar (c : Char) {t : List UInt8} (ht : Quoted t) :
    Quoted (encode (escapeChar c) ++ t) := by
  have hshort : ∀ d : Char, encode ['\\', d] = 0x5c :: encode [d] := fun _ ↦ rfl
  unfold escapeChar
  split_ifs with hquote hslash _ _ _ _ _ hcontrol
  all_goals try exact .escape ht
  · have hhigh := hexDigit_ne (c.toNat / 16) (by omega)
    have hlow := hexDigit_ne (c.toNat % 16) (by omega)
    have hraw : ∀ b ∈ encode ['0', '0', hexDigit (c.toNat / 16), hexDigit (c.toNat % 16)],
        b ≠ 0x22 ∧ b ≠ 0x5c := by
      refine raw_encode ?_ ?_
      · simp [Ne.symm hhigh.1, Ne.symm hlow.1]
      · simp [Ne.symm hhigh.2, Ne.symm hlow.2]
    exact .escape (ht.append_raw hraw)
  · exact ht.append_raw (raw_encode (by simpa using Ne.symm hquote) (by simpa using Ne.symm hslash))

theorem quoted_flatMap_escapeChar (s : List Char) : Quoted (encode (s.flatMap escapeChar)) := by
  induction s with
  | nil => exact .nil
  | cons c s ih =>
      rw [List.flatMap_cons, encode_append]
      exact quoted_escapeChar c ih

theorem encode_quote (s : List Char) :
    encode (quote s) = 0x22 :: (encode (s.flatMap escapeChar) ++ [0x22]) := by
  have hquote : String.utf8EncodeChar '"' = [0x22] := by decide
  rw [quote, encode_cons, encode_append, hquote]
  rfl

theorem isScalarByte_digit {c : Char} (hc : c.isDigit = true) :
    ∀ b ∈ String.utf8EncodeChar c, isScalarByte b := by
  intro b hb
  by_contra hscalar
  have hmem : b ∈ [0x20, 0x09, 0x0a, 0x0d, 0x22, 0x5b, 0x5d, 0x7b, 0x7d, 0x2c, 0x3a] := by
    simp only [isScalarByte, isWs, List.mem_cons] at hscalar ⊢
    simp at hscalar
    tauto
  have hall : ∀ b ∈ [0x20, 0x09, 0x0a, 0x0d, 0x22, 0x5b, 0x5d, 0x7b, 0x7d, 0x2c, 0x3a],
      b < 0x80 ∧ (Char.ofUInt8 b).isDigit = false := by decide +kernel
  obtain ⟨hlt, hdigit⟩ := hall b hmem
  have hb' : b ∈ encode [c] := by simpa [encode_cons] using hb
  have hchar : Char.ofUInt8 b = c := by simpa using (mem_encode_ascii hlt).mp hb'
  rw [hchar, hc] at hdigit
  cases hdigit

mutual

/-- The text of a value is a JSON text. -/
theorem derives_print : ∀ v : Value, Derives .value (encode (print v))
  | .null => .scalar (by decide) (by decide +kernel)
  | .bool true => .scalar (by decide) (by decide +kernel)
  | .bool false => .scalar (by decide) (by decide +kernel)
  | .number n => by
      refine .scalar (fun hnil ↦ ?_) fun b hb ↦ ?_
      · exact Nat.toDigits_ne_nil (encode_injective (hnil.trans encode_nil.symm))
      · obtain ⟨c, hc, hb⟩ := List.mem_flatMap.mp hb
        exact isScalarByte_digit (Nat.isDigit_of_mem_toDigits (by decide) (by decide) hc) b hb
  | .string s => by
      rw [print, encode_quote]
      exact .string (quoted_flatMap_escapeChar s)
  | .object ms => by
      have hopen : String.utf8EncodeChar '{' = [0x7b] := by decide
      rw [print, encode_cons, hopen]
      by_cases hms : ms = .nil
      · subst hms
        exact .emptyObject Ws.nil
      · obtain ⟨t, ht, hderives⟩ := derives_printMembers ms hms
        rw [ht]
        exact .object Ws.nil hderives

theorem derives_printMembers : ∀ ms : Members, ms ≠ .nil →
    ∃ t, encode (printMembers true ms) = t ++ [0x7d] ∧ Derives .members t
  | .nil, hnil => absurd rfl hnil
  | .cons key v ms, _ => by
      have hcolon : String.utf8EncodeChar ':' = [0x3a] := by decide
      have hcomma : String.utf8EncodeChar ',' = [0x2c] := by decide
      have hclose : String.utf8EncodeChar '}' = [0x7d] := by decide
      have hmember := Derives.member (quoted_flatMap_escapeChar key) Ws.nil Ws.nil (derives_print v)
      by_cases hms : ms = .nil
      · subst hms
        refine ⟨_, ?_, .lastMember hmember Ws.nil⟩
        simp [printMembers, encode_append, encode_cons, encode_quote, hcolon, hclose]
      · obtain ⟨t, ht, hderives⟩ := derives_printMembers ms hms
        refine ⟨_, ?_, .members hmember Ws.nil Ws.nil hderives⟩
        have hnext : printMembers false ms = ',' :: printMembers true ms := by
          cases ms with
          | nil => exact absurd rfl hms
          | cons => rfl
        rw [printMembers, hnext]
        simp [encode_append, encode_cons, encode_quote, hcolon, hcomma, ht]

end

/-! ## Control characters -/

theorem plain_of_all {s : List Char} (h : s.all (fun d ↦ decide (0x20 ≤ d.toNat)) = true) :
    ∀ d ∈ s, 0x20 ≤ d.toNat :=
  fun d hd ↦ of_decide_eq_true (List.all_eq_true.mp h d hd)

theorem plain_escapeChar (c : Char) : ∀ d ∈ escapeChar c, 0x20 ≤ d.toNat := by
  have hdigit : ∀ n < 16, 0x20 ≤ (hexDigit n).toNat := by decide
  unfold escapeChar
  split_ifs with _ _ _ _ _ _ _ hcontrol
  all_goals try exact plain_of_all rfl
  · have hhigh := hdigit (c.toNat / 16) (by omega)
    have hlow := hdigit (c.toNat % 16) (by omega)
    simp [hhigh, hlow]
  · simpa using not_lt.mp hcontrol

theorem plain_quote (s : List Char) : ∀ d ∈ quote s, 0x20 ≤ d.toNat := by
  intro d hd
  simp only [quote, List.mem_cons, List.mem_append, List.mem_flatMap, List.not_mem_nil,
    or_false] at hd
  rcases hd with rfl | ⟨c, -, hc⟩ | rfl
  · decide
  · exact plain_escapeChar c d hc
  · decide

mutual

/-- No control characters are written. -/
theorem plain_print : ∀ v : Value, ∀ d ∈ print v, 0x20 ≤ d.toNat
  | .null => plain_of_all rfl
  | .bool true => plain_of_all rfl
  | .bool false => plain_of_all rfl
  | .number n => by
      intro d hd
      have hdigit := Nat.isDigit_of_mem_toDigits (by decide) (by decide) hd
      simp only [Char.isDigit, Bool.and_eq_true, decide_eq_true_eq] at hdigit
      exact le_trans (by decide) (show '0'.toNat ≤ d.toNat from hdigit.1)
  | .string s => plain_quote s
  | .object ms => by
      intro d hd
      rcases List.mem_cons.mp hd with rfl | hd
      · decide
      · exact plain_printMembers true ms d hd

theorem plain_printMembers : ∀ (first : Bool) (ms : Members), ∀ d ∈ printMembers first ms,
    0x20 ≤ d.toNat
  | first, .nil => by cases first <;> exact plain_of_all rfl
  | first, .cons key v ms => by
      intro d hd
      simp only [printMembers, List.mem_append, List.mem_cons] at hd
      rcases hd with hd | hd | rfl | hd | hd
      · cases first with
        | true => cases hd
        | false => exact List.mem_singleton.mp hd ▸ by decide
      · exact plain_quote key d hd
      · decide
      · exact plain_print v d hd
      · exact plain_printMembers false ms d hd

end

end Foundation.Json
