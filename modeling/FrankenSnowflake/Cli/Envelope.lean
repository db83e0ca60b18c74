import Mathlib.Data.UInt
import FrankenSnowflake.Foundation.Double
import FrankenSnowflake.Foundation.JsonRead
import FrankenSnowflake.Foundation.JsonValue
import Mathlib.Data.List.Forall2

/-!
# The JSON of the envelope

The value type of the command line between the library's values and the text,
with its printer.  A number that is not an `i64` becomes a float.
-/

namespace FrankenSnowflake.Envelope

open Foundation JsonRead

abbrev Text := List Char

/-! ## Values -/

/-- A double: one that is an integer, or one of which only the bits are known. -/
inductive F64 where
  | integer (n : Nat)
  | bits (b : UInt64)
deriving DecidableEq

inductive Json where
  | null
  | bool (b : Bool)
  | number (n : Int)
  | float (x : F64)
  | string (s : Text)
  | array (items : List Json)
  | object (entries : List (Text × Json))

/-- `Number::as_i64`. -/
def asI64 : JsonNumber → Option Int
  | .posInt n => if n.toNat < 2 ^ 63 then some n.toNat else none
  | .negInt n => some n.toInt
  | .float _ => none

/-- `Number::as_u64`. -/
def asU64 : JsonNumber → Option UInt64
  | .posInt n => some n
  | .negInt _ | .float _ => none

/-- `Number::as_f64`, of a number that is no `i64`. -/
def asF64 : JsonNumber → F64
  | .posInt n => .integer (Double.nearest n.toNat)
  | .negInt n => .integer (Double.nearest n.toInt.toNat)
  | .float bits => .bits bits

/-- `i64::try_from` of an `u64`. -/
def i64TryFrom (n : UInt64) : Option Int := if n.toNat < 2 ^ 63 then some n.toNat else none

def fromSerdeNumber (number : JsonNumber) : Json :=
  match asI64 number with
  | some value => .number value
  | none =>
      match (asU64 number).bind i64TryFrom with
      | some value => .number value
      | none => .float (asF64 number)

mutual

def fromSerde : JsonValue → Json
  | .null => .null
  | .bool value => .bool value
  | .number number => fromSerdeNumber number
  | .string value => .string value
  | .array values => .array (fromSerdeItems values)
  | .object entries => .object (fromSerdeEntries entries)

def fromSerdeItems : List JsonValue → List Json
  | [] => []
  | value :: values => fromSerde value :: fromSerdeItems values

def fromSerdeEntries : List (Text × JsonValue) → List (Text × Json)
  | [] => []
  | (key, value) :: entries => (key, fromSerde value) :: fromSerdeEntries entries

end

/-! ## The printer -/

/-- `char::is_control`. -/
def isControl (c : Char) : Bool := c.toNat < 0x20 || (0x7f ≤ c.toNat && c.toNat < 0xa0)

/-- `{:04x}` of a character below 256. -/
def hex4 (c : Char) : Text :=
  ['0', '0', Nat.digitChar (c.toNat / 16), Nat.digitChar (c.toNat % 16)]

def escapeChar (c : Char) : Text :=
  if c = '"' then ['\\', '"']
  else if c = '\\' then ['\\', '\\']
  else if c = '\n' then ['\\', 'n']
  else if c = '\r' then ['\\', 'r']
  else if c = '\t' then ['\\', 't']
  else if isControl c then '\\' :: 'u' :: hex4 c
  else [c]

def escapeJsonString (s : Text) : Text := s.flatMap escapeChar

/-- `i64::to_string`. -/
def decimal (n : Int) : Text :=
  if n < 0 then '-' :: Nat.toDigits 10 n.natAbs else Nat.toDigits 10 n.natAbs

def isFinite : F64 → Bool
  | .integer _ => true
  | .bits b => (b >>> 52) &&& 0x7ff ≠ 0x7ff

section Printer

variable (bitsText : UInt64 → Text)

/-- `f64::to_string`; `bitsText` is the text of a float by its bits. -/
def displayF64 : F64 → Text
  | .integer n => Nat.toDigits 10 (Double.shortest n)
  | .bits b => bitsText b

mutual

def renderJson : Json → Text
  | .null => "null".toList
  | .bool value => if value then "true".toList else "false".toList
  | .number value => decimal value
  | .float value => if isFinite value then displayF64 bitsText value else "null".toList
  | .string value => '"' :: (escapeJsonString value ++ ['"'])
  | .array values => '[' :: (renderItems true values ++ [']'])
  | .object entries => '\x7b' :: (renderEntries true entries ++ ['\x7d'])

/-- The items, with a comma in front of each but the first. -/
def renderItems (first : Bool) : List Json → Text
  | [] => []
  | item :: items => (if first then [] else [',']) ++ (renderJson item ++ renderItems false items)

def renderEntries (first : Bool) : List (Text × Json) → Text
  | [] => []
  | (key, item) :: entries =>
      (if first then [] else [',']) ++
        ('"' :: (escapeJsonString key ++ '"' :: ':' :: renderJson item) ++ renderEntries false entries)

end

end Printer

/-! ## What a value says -/

mutual

/-- The numbers of a value, in order. -/
def numbers : JsonValue → List JsonNumber
  | .null | .bool _ | .string _ => []
  | .number n => [n]
  | .array values => numbersItems values
  | .object entries => numbersEntries entries

def numbersItems : List JsonValue → List JsonNumber
  | [] => []
  | value :: values => numbers value ++ numbersItems values

def numbersEntries : List (Text × JsonValue) → List JsonNumber
  | [] => []
  | (_, value) :: entries => numbers value ++ numbersEntries entries

end

section Doc

variable (number : JsonNumber → Doc)

mutual

/-- A value as a JSON text says it, by what its numbers say. -/
def docWith : JsonValue → Doc
  | .null => .null
  | .bool b => .bool b
  | .number n => number n
  | .string s => .string s
  | .array values => .array (docItems values)
  | .object entries => .object (docEntries entries)

def docItems : List JsonValue → List Doc
  | [] => []
  | value :: values => docWith value :: docItems values

def docEntries : List (Text × JsonValue) → List (Text × Doc)
  | [] => []
  | (key, value) :: entries => (key, docWith value) :: docEntries entries

end

end Doc

variable {number number' : JsonNumber → Doc}

mutual

/-- Two readings of a value are the same if they are on each of its numbers. -/
theorem docWith_eq_iff : ∀ v : JsonValue,
    docWith number v = docWith number' v ↔ ∀ n ∈ numbers v, number n = number' n
  | .null | .bool _ | .string _ => iff_of_true rfl (List.forall_mem_nil _)
  | .number n => by rw [docWith, docWith, numbers, List.forall_mem_singleton]
  | .array values => by
      rw [docWith, docWith, numbers, Doc.array.injEq]
      exact docItems_eq_iff values
  | .object entries => by
      rw [docWith, docWith, numbers, Doc.object.injEq]
      exact docEntries_eq_iff entries

theorem docItems_eq_iff : ∀ vs : List JsonValue,
    docItems number vs = docItems number' vs ↔ ∀ n ∈ numbersItems vs, number n = number' n
  | [] => iff_of_true rfl (List.forall_mem_nil _)
  | v :: vs => by
      rw [docItems, docItems, numbersItems, List.forall_mem_append, List.cons.injEq]
      exact and_congr (docWith_eq_iff v) (docItems_eq_iff vs)

theorem docEntries_eq_iff : ∀ es : List (Text × JsonValue),
    docEntries number es = docEntries number' es ↔ ∀ n ∈ numbersEntries es, number n = number' n
  | [] => iff_of_true rfl (List.forall_mem_nil _)
  | (key, v) :: es => by
      rw [docEntries, docEntries, numbersEntries, List.forall_mem_append, List.cons.injEq,
        Prod.mk.injEq, and_iff_right rfl]
      exact and_congr (docWith_eq_iff v) (docEntries_eq_iff es)

end

/-! ## The text as it is read -/

theorem isControl_of_lt {c : Char} (h : c.toNat < 0x20) : isControl c = true := by
  rw [isControl, decide_eq_true h, Bool.true_or]

theorem lt_of_isControl {c : Char} (h : isControl c = true) : c.toNat < 0xa0 := by
  simp only [isControl, Bool.or_eq_true, Bool.and_eq_true, decide_eq_true_eq] at h
  omega

theorem readHex4_hex4 {c : Char} (h : c.toNat < 256) (rest : Text) :
    JsonRead.hex4 (hex4 c ++ rest) = some (c.toNat, rest) := by
  have hdigits : ∀ n : Fin 256, JsonRead.hexValue (Nat.digitChar (n.val / 16)) = some (n.val / 16) ∧
      JsonRead.hexValue (Nat.digitChar (n.val % 16)) = some (n.val % 16) := by decide +kernel
  obtain ⟨hhigh, hlow⟩ := hdigits ⟨c.toNat, h⟩
  have hzero : JsonRead.hexValue '0' = some 0 := by decide
  simp only [hex4, List.cons_append, List.nil_append, JsonRead.hex4, hzero, hhigh, hlow,
    Option.bind_eq_bind, Option.bind_some, Option.pure_def, Option.some.injEq, Prod.mk.injEq,
    and_true]
  omega

/-- Each character is read back from its escape. -/
theorem readChar_escapeChar (c : Char) (rest : Text) :
    readChar (escapeChar c ++ rest) = some (c, rest) := by
  unfold escapeChar
  split_ifs with hquote hback hline hreturn htab hcontrol
  · rw [hquote]; rfl
  · rw [hback]; rfl
  · rw [hline]; rfl
  · rw [hreturn]; rfl
  · rw [htab]; rfl
  · have hlt := lt_of_isControl hcontrol
    have hlow : Json.isLowSurrogate c.toNat = false := by
      rw [Json.isLowSurrogate, decide_eq_false (by omega), Bool.false_and]
    have hhigh : Json.isHighSurrogate c.toNat = false := by
      rw [Json.isHighSurrogate, decide_eq_false (by omega), Bool.false_and]
    show readUnicode (hex4 c ++ rest) = _
    rw [readUnicode, readHex4_hex4 (by omega)]
    simp only [Option.bind_eq_bind, Option.bind_some, hlow, hhigh, Char.ofNat_toNat]
    rfl
  · have hlt : ¬ c.toNat < 0x20 := fun h ↦ hcontrol (isControl_of_lt h)
    exact (if_neg hback).trans (if_neg (not_or.mpr ⟨hquote, hlt⟩))

/-- A text of one line. -/
def Line (t : Text) : Prop := ∀ c ∈ t, isControl c = false

theorem Line.append {s t : Text} (hs : Line s) (ht : Line t) : Line (s ++ t) :=
  List.forall_mem_append.mpr ⟨hs, ht⟩

theorem Line.cons {c : Char} {t : Text} (hc : isControl c = false) (ht : Line t) : Line (c :: t) :=
  List.forall_mem_cons.mpr ⟨hc, ht⟩

theorem Line.of_all {t : Text} (h : t.all (!isControl ·) = true) : Line t := fun c hc ↦ by
  rw [← Bool.not_eq_true']
  exact List.all_eq_true.mp h c hc

theorem line_toDigits (n : Nat) : Line (Nat.toDigits 10 n) := by
  intro c hc
  have hdigit := Nat.isDigit_of_mem_toDigits (by decide) (by decide) hc
  obtain ⟨hlow, hhigh⟩ := Char.isDigit_iff_toNat.mp hdigit
  have hlow : 0x30 ≤ c.toNat := hlow
  have hhigh : c.toNat ≤ 0x39 := hhigh
  rw [isControl, decide_eq_false (by omega), decide_eq_false (by omega)]
  rfl

theorem line_escapeChar (c : Char) : Line (escapeChar c) := by
  unfold escapeChar
  split_ifs with hquote hback hline hreturn htab hcontrol
  · exact .of_all rfl
  · exact .of_all rfl
  · exact .of_all rfl
  · exact .of_all rfl
  · exact .of_all rfl
  · have hdigits : ∀ n : Fin 256, isControl (Nat.digitChar (n.val / 16)) = false ∧
        isControl (Nat.digitChar (n.val % 16)) = false := by decide +kernel
    obtain ⟨hhigh, hlow⟩ := hdigits ⟨c.toNat, Nat.lt_trans (lt_of_isControl hcontrol) (by decide)⟩
    exact .cons rfl (.cons rfl (.cons rfl (.cons rfl (.cons hhigh (.cons hlow nofun)))))
  · exact .cons (Bool.not_eq_true _ ▸ hcontrol) nofun

theorem line_escapeJsonString (s : Text) : Line (escapeJsonString s) := by
  intro c hc
  obtain ⟨d, -, hd⟩ := List.mem_flatMap.mp hc
  exact line_escapeChar d c hd

theorem line_separated {ts : List Text} (h : ∀ t ∈ ts, Line t) :
    ∀ first, Line (separated first ts) := by
  induction ts with
  | nil => exact fun _ _ hc ↦ absurd hc List.not_mem_nil
  | cons t ts ih =>
      intro first
      rw [List.forall_mem_cons] at h
      rw [separated]
      refine .append ?_ (h.1.append (ih h.2 false))
      cases first with
      | true => exact fun _ hc ↦ absurd hc List.not_mem_nil
      | false => exact .of_all rfl

/-! ## What the text of a value says -/

section Value

variable {bitsText : UInt64 → Text}

theorem renderItems_eq (items : List Json) : ∀ first,
    renderItems bitsText first items = separated first (items.map (renderJson bitsText)) := by
  induction items with
  | nil => exact fun _ ↦ rfl
  | cons item items ih =>
      intro first
      rw [renderItems, List.map_cons, separated, ih]

def renderEntry (bitsText : UInt64 → Text) (entry : Text × Json) : Text :=
  '"' :: (escapeJsonString entry.1 ++ '"' :: ':' :: renderJson bitsText entry.2)

theorem renderEntries_eq (entries : List (Text × Json)) : ∀ first,
    renderEntries bitsText first entries =
      separated first (entries.map (renderEntry bitsText)) := by
  induction entries with
  | nil => exact fun _ ↦ rfl
  | cons entry entries ih =>
      intro first
      rw [renderEntries, List.map_cons, separated, ih]
      rfl

/-- What a value says of a number. -/
def exactNumber (bitsText : UInt64 → Text) : JsonNumber → Doc
  | .posInt n => .integer n.toNat
  | .negInt n => .integer n.toInt
  | .float bits => .decimal (bitsText bits)

/-- What its text says: beyond the signed range, the shortest decimal of its double. -/
def printedNumber (bitsText : UInt64 → Text) : JsonNumber → Doc
  | .posInt n =>
      if n.toNat < 2 ^ 63 then .integer n.toNat
      else .integer (Double.shortest (Double.nearest n.toNat))
  | .negInt n => .integer n.toInt
  | .float bits => .decimal (bitsText bits)

/-- An integer whose text says it: of the signed range, or a decimal that a double is printed as. -/
def KeptNumber : JsonNumber → Prop
  | .posInt n => n.toNat < 2 ^ 63 ∨ Double.shortest (Double.nearest n.toNat) = n.toNat
  | .negInt _ | .float _ => True

theorem printedNumber_eq_iff (n : JsonNumber) :
    printedNumber bitsText n = exactNumber bitsText n ↔ KeptNumber n := by
  cases n with
  | posInt n =>
      rw [printedNumber, exactNumber, KeptNumber]
      split_ifs with h
      · exact iff_of_true rfl (.inl h)
      · rw [or_iff_right h, Doc.integer.injEq, Int.natCast_inj]
  | negInt n => exact iff_of_true rfl trivial
  | float bits => exact iff_of_true rfl trivial

def IsInteger : JsonNumber → Prop
  | .posInt _ | .negInt _ => True
  | .float _ => False

theorem fromSerdeNumber_negInt (n : Int64) : fromSerdeNumber (.negInt n) = .number n.toInt := rfl

theorem fromSerdeNumber_of_lt {n : UInt64} (h : n.toNat < 2 ^ 63) :
    fromSerdeNumber (.posInt n) = .number n.toNat := by
  rw [fromSerdeNumber, asI64, if_pos h]

theorem fromSerdeNumber_of_le {n : UInt64} (h : ¬ n.toNat < 2 ^ 63) :
    fromSerdeNumber (.posInt n) = .float (.integer (Double.nearest n.toNat)) := by
  rw [fromSerdeNumber, asI64, if_neg h, asU64, Option.bind_some, i64TryFrom, if_neg h]
  rfl

theorem reads_decimal (n : Int) : Reads (decimal n) (.integer n) := by
  unfold decimal
  split_ifs with h
  · rw [show n = -(n.natAbs : Int) by omega, Int.natAbs_neg, Int.natAbs_natCast]
    exact .negative _
  · rw [show n = (n.natAbs : Int) by omega, Int.natAbs_natCast]
    exact .natural _

theorem line_decimal (n : Int) : Line (decimal n) := by
  unfold decimal
  split_ifs with h
  · exact .cons rfl (line_toDigits _)
  · exact line_toDigits _

/-- A number that is read as what is printed of it, on a line. -/
theorem render_number {n : JsonNumber} (h : IsInteger n) :
    Reads (renderJson bitsText (fromSerdeNumber n)) (printedNumber bitsText n) ∧
      Line (renderJson bitsText (fromSerdeNumber n)) := by
  cases n with
  | posInt n =>
      by_cases hn : n.toNat < 2 ^ 63
      · rw [fromSerdeNumber_of_lt hn, printedNumber, if_pos hn, renderJson]
        exact ⟨reads_decimal _, line_decimal _⟩
      · rw [fromSerdeNumber_of_le hn, printedNumber, if_neg hn, renderJson,
          if_pos (show isFinite (.integer _) = true from rfl)]
        exact ⟨.natural _, line_toDigits _⟩
  | negInt n =>
      rw [fromSerdeNumber_negInt, printedNumber, renderJson]
      exact ⟨reads_decimal _, line_decimal _⟩
  | float bits => exact h.elim

theorem line_quoted (s : Text) {t : Text} (ht : Line t) :
    Line ('"' :: (escapeJsonString s ++ t)) :=
  .cons rfl ((line_escapeJsonString s).append ht)

mutual

/-- The text of a value: one line, read as the value with its numbers as they are printed. -/
theorem render_value : ∀ v : JsonValue, (∀ n ∈ numbers v, IsInteger n) →
    Reads (renderJson bitsText (fromSerde v)) (docWith (printedNumber bitsText) v) ∧
      Line (renderJson bitsText (fromSerde v))
  | .null, _ => ⟨.null, .of_all rfl⟩
  | .bool true, _ => ⟨.boolTrue, .of_all rfl⟩
  | .bool false, _ => ⟨.boolFalse, .of_all rfl⟩
  | .number _, h => render_number (h _ List.mem_cons_self)
  | .string s, _ => ⟨.string readChar_escapeChar s, line_quoted s (.of_all rfl)⟩
  | .array values, h => by
      obtain ⟨hreads, hlines⟩ := render_items values h
      rw [fromSerde, renderJson, renderItems_eq, docWith]
      exact ⟨.array hreads, .cons rfl ((line_separated hlines true).append (.of_all rfl))⟩
  | .object entries, h => by
      obtain ⟨hreads, hlines⟩ := render_entries entries h
      rw [fromSerde, renderJson, renderEntries_eq, docWith]
      exact ⟨.object readChar_escapeChar hreads,
        .cons rfl ((line_separated hlines true).append (.of_all rfl))⟩

theorem render_items : ∀ vs : List JsonValue, (∀ n ∈ numbersItems vs, IsInteger n) →
    List.Forall₂ Reads ((fromSerdeItems vs).map (renderJson bitsText))
        (docItems (printedNumber bitsText) vs) ∧
      ∀ t ∈ (fromSerdeItems vs).map (renderJson bitsText), Line t
  | [], _ => ⟨.nil, nofun⟩
  | v :: vs, h => by
      rw [numbersItems, List.forall_mem_append] at h
      obtain ⟨hread, hline⟩ := render_value v h.1
      obtain ⟨hreads, hlines⟩ := render_items vs h.2
      exact ⟨.cons hread hreads, List.forall_mem_cons.mpr ⟨hline, hlines⟩⟩

theorem render_entries : ∀ es : List (Text × JsonValue), (∀ n ∈ numbersEntries es, IsInteger n) →
    List.Forall₂ (ReadsMember escapeChar) ((fromSerdeEntries es).map (renderEntry bitsText))
        (docEntries (printedNumber bitsText) es) ∧
      ∀ t ∈ (fromSerdeEntries es).map (renderEntry bitsText), Line t
  | [], _ => ⟨.nil, nofun⟩
  | (key, v) :: es, h => by
      rw [numbersEntries, List.forall_mem_append] at h
      obtain ⟨hread, hline⟩ := render_value v h.1
      obtain ⟨hreads, hlines⟩ := render_entries es h.2
      exact ⟨.cons ⟨_, rfl, hread⟩ hreads, List.forall_mem_cons.mpr
        ⟨line_quoted key (.cons rfl (.cons rfl hline)), hlines⟩⟩

end

/-- The text of a value is one line that says the value. -/
structure Says (bitsText : UInt64 → Text) (t : Text) (v : JsonValue) : Prop where
  line : Line t
  reads : JsonRead.read t = some (docWith (exactNumber bitsText) v)

theorem says_iff_doc {v : JsonValue} (h : ∀ n ∈ numbers v, IsInteger n) :
    Says bitsText (renderJson bitsText (fromSerde v)) v ↔
      docWith (printedNumber bitsText) v = docWith (exactNumber bitsText) v := by
  obtain ⟨hreads, hline⟩ := @render_value bitsText v h
  constructor
  · intro hsays
    have hread := hreads.read.symm.trans hsays.reads
    exact Option.some.inj hread
  · intro heq
    exact ⟨hline, hreads.read.trans (congrArg some heq)⟩

/-- The envelope says a value of integers exactly when its numbers are kept. -/
theorem renderJson_says_iff {v : JsonValue} (h : ∀ n ∈ numbers v, IsInteger n) :
    Says bitsText (renderJson bitsText (fromSerde v)) v ↔ ∀ n ∈ numbers v, KeptNumber n := by
  rw [says_iff_doc h, docWith_eq_iff]
  exact forall₂_congr fun n _ ↦ printedNumber_eq_iff n

end Value

/-- The largest `i64` under a key that is escaped. -/
def largest : JsonValue :=
  .object [(['\n', '"'], .array [.number (.posInt (2 ^ 63 - 1)), .number (.negInt (-1)), .null])]

theorem renderJson_says_largest :
    Says (fun _ ↦ []) (renderJson (fun _ ↦ []) (fromSerde largest)) largest :=
  (renderJson_says_iff (List.forall_mem_cons.mpr ⟨trivial,
    List.forall_mem_cons.mpr ⟨trivial, nofun⟩⟩)).mpr
      (List.forall_mem_cons.mpr ⟨.inl (by decide +kernel), List.forall_mem_cons.mpr ⟨trivial, nofun⟩⟩)

/-- The largest `u64` is rounded to a double. -/
theorem renderJson_not_says_max :
    (∀ n ∈ numbers (.number (.posInt (2 ^ 64 - 1))), IsInteger n) ∧
      renderJson (fun _ ↦ []) (fromSerde (.number (.posInt (2 ^ 64 - 1)))) =
        "18446744073709552000".toList ∧
      ¬ Says (fun _ ↦ []) (renderJson (fun _ ↦ []) (fromSerde (.number (.posInt (2 ^ 64 - 1)))))
        (.number (.posInt (2 ^ 64 - 1))) := by
  have hinteger : ∀ n ∈ numbers (.number (.posInt (2 ^ 64 - 1))), IsInteger n :=
    List.forall_mem_cons.mpr ⟨trivial, nofun⟩
  refine ⟨hinteger, by decide +kernel, ?_⟩
  rw [says_iff_doc hinteger]
  intro h
  rw [docWith, docWith, printedNumber_eq_iff] at h
  exact absurd h (by decide +kernel : ¬ (_ ∨ _))

end FrankenSnowflake.Envelope
