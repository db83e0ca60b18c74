import Mathlib.Data.List.Nodup
import FrankenSnowflake.Foundation.JsonPrint
import FrankenSnowflake.Foundation.JsonRead

/-!
# Compact JSON and its records

The compact text of a JSON value, which is read as the value, and what a derived
reader of a record takes from it: the fields by name, or by position.
-/

namespace Foundation.JsonRead

namespace Doc

mutual

/-- The compact text of a value. -/
def print : Doc → List Char
  | null => ['n', 'u', 'l', 'l']
  | bool true => ['t', 'r', 'u', 'e']
  | bool false => ['f', 'a', 'l', 's', 'e']
  | integer (.ofNat n) => Nat.toDigits 10 n
  | integer (.negSucc n) => '-' :: Nat.toDigits 10 (n + 1)
  | decimal text => text
  | string s => Json.quote s
  | array items => '[' :: (separated true (printItems items) ++ [']'])
  | object members => '\x7b' :: (separated true (printMembers members) ++ ['\x7d'])

def printItems : List Doc → List (List Char)
  | [] => []
  | item :: items => print item :: printItems items

def printMembers : List (List Char × Doc) → List (List Char)
  | [] => []
  | (key, value) :: members => (Json.quote key ++ ':' :: print value) :: printMembers members

end

mutual

/-- A value whose numbers are integers. -/
def Exact : Doc → Prop
  | null | bool _ | integer _ | string _ => True
  | decimal _ => False
  | array items => ExactItems items
  | object members => ExactMembers members

def ExactItems : List Doc → Prop
  | [] => True
  | item :: items => Exact item ∧ ExactItems items

def ExactMembers : List (List Char × Doc) → Prop
  | [] => True
  | (_, value) :: members => Exact value ∧ ExactMembers members

end

end Doc

/-! ## The text of a value -/

theorem readHex4_control : ∀ n < 0x20, hex4
    ['0', '0', Json.hexDigit (n / 16), Json.hexDigit (n % 16)] = some (n, []) := by decide

theorem hex4_append {s s' : List Char} {n : Nat} (h : hex4 s = some (n, s')) (rest : List Char) :
    hex4 (s ++ rest) = some (n, s' ++ rest) := by
  unfold hex4 at h
  split at h
  · simp only [Option.bind_eq_bind, Option.bind_eq_some_iff, Option.pure_def, Option.some.injEq,
      Prod.mk.injEq] at h
    obtain ⟨x, hx, y, hy, z, hz, w, hw, rfl, rfl⟩ := h
    simp only [List.cons_append, hex4, hx, hy, hz, hw, Option.bind_eq_bind, Option.bind_some]
    rfl
  · cases h

/-- A character that is escaped is read back. -/
theorem readChar_escapeChar (c : Char) (rest : List Char) :
    readChar (Json.escapeChar c ++ rest) = some (c, rest) := by
  unfold Json.escapeChar
  split_ifs with hquote hback hbackspace hfeed hline hreturn htab hcontrol
  · rw [hquote]; rfl
  · rw [hback]; rfl
  · rw [hbackspace]; rfl
  · rw [hfeed]; rfl
  · rw [hline]; rfl
  · rw [hreturn]; rfl
  · rw [htab]; rfl
  · have hlow : Json.isLowSurrogate c.toNat = false := by
      rw [Json.isLowSurrogate, decide_eq_false (by omega), Bool.false_and]
    have hhigh : Json.isHighSurrogate c.toNat = false := by
      rw [Json.isHighSurrogate, decide_eq_false (by omega), Bool.false_and]
    show readUnicode (['0', '0', Json.hexDigit (c.toNat / 16), Json.hexDigit (c.toNat % 16)] ++
      rest) = _
    rw [readUnicode, hex4_append (readHex4_control c.toNat hcontrol)]
    simp only [Option.bind_eq_bind, Option.bind_some, hlow, hhigh, Char.ofNat_toNat]
    rfl
  · exact (if_neg hback).trans (if_neg (not_or.mpr ⟨hquote, hcontrol⟩))

theorem plain_toDigits (n : Nat) : ∀ c ∈ Nat.toDigits 10 n, 0x20 ≤ c.toNat := by
  intro c hc
  have hdigit := Nat.isDigit_of_mem_toDigits (by decide) (by decide) hc
  have hlow : 0x30 ≤ c.toNat := (Char.isDigit_iff_toNat.mp hdigit).1
  omega

theorem plain_separated {ts : List (List Char)} (h : ∀ t ∈ ts, ∀ c ∈ t, 0x20 ≤ c.toNat) :
    ∀ first, ∀ c ∈ separated first ts, 0x20 ≤ c.toNat := by
  induction ts with
  | nil => exact fun _ _ hc ↦ absurd hc List.not_mem_nil
  | cons t ts ih =>
      intro first
      rw [List.forall_mem_cons] at h
      rw [separated]
      refine List.forall_mem_append.mpr ⟨?_, List.forall_mem_append.mpr ⟨h.1, ih h.2 false⟩⟩
      cases first with
      | true => exact fun _ hc ↦ absurd hc List.not_mem_nil
      | false => exact List.forall_mem_singleton.mpr (by decide)

theorem plain_enclosed {a b : Char} (ha : 0x20 ≤ a.toNat) (hb : 0x20 ≤ b.toNat)
    {ts : List (List Char)} (h : ∀ t ∈ ts, ∀ c ∈ t, 0x20 ≤ c.toNat) :
    ∀ c ∈ a :: (separated true ts ++ [b]), 0x20 ≤ c.toNat :=
  List.forall_mem_cons.mpr ⟨ha, List.forall_mem_append.mpr
    ⟨plain_separated h true, List.forall_mem_singleton.mpr hb⟩⟩

namespace Doc

mutual

/-- The text of a value is read as the value. -/
theorem reads_print : ∀ {d : Doc}, d.Exact → Reads d.print d
  | null, _ => .null
  | bool true, _ => .boolTrue
  | bool false, _ => .boolFalse
  | integer (.ofNat n), _ => .natural n
  | integer (.negSucc n), _ => .negative (n + 1)
  | decimal _, h => h.elim
  | string s, _ => .string readChar_escapeChar s
  | array _, h => .array (reads_printItems h)
  | object _, h => .object readChar_escapeChar (reads_printMembers h)

theorem reads_printItems : ∀ {items : List Doc}, ExactItems items →
    List.Forall₂ Reads (printItems items) items
  | [], _ => .nil
  | _ :: _, h => .cons (reads_print h.1) (reads_printItems h.2)

theorem reads_printMembers : ∀ {members : List (List Char × Doc)}, ExactMembers members →
    List.Forall₂ (ReadsMember Json.escapeChar) (printMembers members) members
  | [], _ => .nil
  | (_, value) :: _, h =>
      .cons ⟨print value, by simp only [Json.quote, List.cons_append, List.append_assoc,
        List.nil_append], reads_print h.1⟩ (reads_printMembers h.2)

end

mutual

/-- A value is written on one line. -/
theorem plain_print : ∀ {d : Doc}, d.Exact → ∀ c ∈ d.print, 0x20 ≤ c.toNat
  | null, _ => Json.plain_of_all rfl
  | bool true, _ => Json.plain_of_all rfl
  | bool false, _ => Json.plain_of_all rfl
  | integer (.ofNat n), _ => plain_toDigits n
  | integer (.negSucc n), _ => List.forall_mem_cons.mpr ⟨by decide, plain_toDigits (n + 1)⟩
  | decimal _, h => h.elim
  | string s, _ => Json.plain_quote s
  | array _, h => plain_enclosed (by decide) (by decide) (plain_printItems h)
  | object _, h => plain_enclosed (by decide) (by decide) (plain_printMembers h)

theorem plain_printItems : ∀ {items : List Doc}, ExactItems items →
    ∀ t ∈ printItems items, ∀ c ∈ t, 0x20 ≤ c.toNat
  | [], _ => nofun
  | _ :: _, h => List.forall_mem_cons.mpr ⟨plain_print h.1, plain_printItems h.2⟩

theorem plain_printMembers : ∀ {members : List (List Char × Doc)}, ExactMembers members →
    ∀ t ∈ printMembers members, ∀ c ∈ t, 0x20 ≤ c.toNat
  | [], _ => nofun
  | (key, _) :: _, h => List.forall_mem_cons.mpr
      ⟨List.forall_mem_append.mpr ⟨Json.plain_quote key,
        List.forall_mem_cons.mpr ⟨by decide, plain_print h.1⟩⟩, plain_printMembers h.2⟩

end

/-! ## Records -/

/-- The value of a member: none without one, and no reading of two. -/
def member (members : List (List Char × Doc)) (name : List Char) : Option (Option Doc) :=
  match members.filter (·.1 = name) with
  | [] => some none
  | [m] => some (some m.2)
  | _ => none

/-- The fields of a record: the members of these names, or the items in their place. -/
def fields (names : List (List Char)) : Doc → Option (List (Option Doc))
  | object members => names.mapM (member members)
  | array items => if items.length = names.length then some (items.map some) else none
  | null | bool _ | integer _ | decimal _ | string _ => none

theorem member_cons_of_ne {name key : List Char} (h : key ≠ name) (value : Doc)
    (members : List (List Char × Doc)) :
    member ((key, value) :: members) name = member members name := by
  rw [member, member, List.filter_cons_of_neg (by simpa using h)]

theorem member_cons_self {key : List Char} {members : List (List Char × Doc)}
    (h : key ∉ members.map Prod.fst) (value : Doc) :
    member ((key, value) :: members) key = some (some value) := by
  have hnil : members.filter (·.1 = key) = [] := by
    rw [List.filter_eq_nil_iff]
    intro m hm hkey
    exact h (of_decide_eq_true hkey ▸ List.mem_map_of_mem hm)
  rw [member, List.filter_cons_of_pos (by simp), hnil]

theorem mapM_member_cons {key : List Char} {names : List (List Char)} (h : key ∉ names)
    (value : Doc) (members : List (List Char × Doc)) :
    names.mapM (member ((key, value) :: members)) = names.mapM (member members) := by
  induction names with
  | nil => rfl
  | cons name names ih =>
      obtain ⟨hne, hnames⟩ := not_or.mp (List.mem_cons.not.mp h)
      rw [List.mapM_cons, List.mapM_cons, member_cons_of_ne hne, ih hnames]

/-- A record is read by the names it is written with. -/
theorem fields_object {members : List (List Char × Doc)} (h : (members.map Prod.fst).Nodup) :
    fields (members.map Prod.fst) (object members) = some (members.map (some ·.2)) := by
  rw [fields]
  induction members with
  | nil => rfl
  | cons m members ih =>
      obtain ⟨hkey, hnodup⟩ := List.nodup_cons.mp h
      rw [List.map_cons, List.mapM_cons, member_cons_self hkey, mapM_member_cons hkey, ih hnodup]
      rfl

def asString : Doc → Option (List Char)
  | string s => some s
  | null | bool _ | integer _ | decimal _ | array _ | object _ => none

def asArray : Doc → Option (List Doc)
  | array items => some items
  | null | bool _ | integer _ | decimal _ | string _ | object _ => none

/-- An integer of an unsigned width. -/
def asUnsigned (bits : Nat) : Doc → Option Nat
  | integer n => if 0 ≤ n ∧ n < 2 ^ bits then some n.toNat else none
  | null | bool _ | decimal _ | string _ | array _ | object _ => none

theorem asUnsigned_natCast {bits n : Nat} (h : n < 2 ^ bits) :
    asUnsigned bits (integer n) = some n :=
  if_pos ⟨Int.natCast_nonneg n, by exact_mod_cast h⟩

/-- The name of a variant without fields. -/
def asVariant : Doc → Option (List Char)
  | string s => some s
  | object [(s, null)] => some s
  | null | bool _ | integer _ | decimal _ | array _ | object _ => none

/-- An optional field: missing and null are none. -/
def optional {α : Type*} (f : Doc → Option α) : Option Doc → Option (Option α)
  | none | some null => some none
  | some d => (f d).map some

end Doc

end Foundation.JsonRead
