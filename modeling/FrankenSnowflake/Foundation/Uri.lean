import FrankenSnowflake.Foundation.Utf8

/-!
# URIs

The generic syntax of a URI, the removal of dot segments and percent-decoding.
-/

namespace Foundation.Uri

/-! ## Percent-encoding -/

/-- The value of a hexadecimal digit. -/
def hexValue (c : Char) : Option Nat :=
  if c.isDigit then some (c.toNat - '0'.toNat)
  else if 'A' ≤ c ∧ c ≤ 'F' then some (c.toNat - 'A'.toNat + 10)
  else if 'a' ≤ c ∧ c ≤ 'f' then some (c.toNat - 'a'.toNat + 10)
  else none

/-- The octets of a text with percent escapes; other characters stand for themselves. -/
def percentDecode : List Char → List UInt8
  | [] => []
  | '%' :: a :: b :: rest =>
      match hexValue a, hexValue b with
      | some x, some y => UInt8.ofNat (16 * x + y) :: percentDecode rest
      | _, _ => 0x25 :: percentDecode (a :: b :: rest)
  | c :: rest => String.utf8EncodeChar c ++ percentDecode rest

theorem percentDecode_cons {c : Char} (hc : c ≠ '%') (rest : List Char) :
    percentDecode (c :: rest) = String.utf8EncodeChar c ++ percentDecode rest := by
  rw [percentDecode]
  intro _ _ _ h
  exact absurd h hc

theorem percentDecode_escape {a b : Char} {x y : Nat} (ha : hexValue a = some x)
    (hb : hexValue b = some y) (rest : List Char) :
    percentDecode ('%' :: a :: b :: rest) = UInt8.ofNat (16 * x + y) :: percentDecode rest := by
  rw [percentDecode, ha, hb]

/-- A byte that stands for itself, or its escape with these digits. -/
def percentEscape (keep : UInt8 → Bool) (digit : Nat → Char) (byte : UInt8) : List Char :=
  if keep byte then [Char.ofNat byte.toNat]
  else ['%', digit (byte.toNat / 16), digit (byte.toNat % 16)]

section Escape

variable {keep : UInt8 → Bool} {digit : Nat → Char}
  (hkeep : ∀ byte, keep byte = true → byte < 0x80 ∧ Char.ofNat byte.toNat ≠ '%')
  (hdigit : ∀ n < 16, hexValue (digit n) = some n)
include hkeep hdigit

theorem percentDecode_percentEscape (byte : UInt8) (rest : List Char) :
    percentDecode (percentEscape keep digit byte ++ rest) = byte :: percentDecode rest := by
  have hbyte : byte.toNat < 256 := byte.toNat_lt
  unfold percentEscape
  split_ifs with h
  · obtain ⟨hlt, hne⟩ := hkeep byte h
    have hchar : Char.ofNat byte.toNat = Char.ofUInt8 byte := Char.ofNat_toNat (Char.ofUInt8 byte)
    rw [List.singleton_append, percentDecode_cons hne, hchar, Utf8.utf8EncodeChar_ofUInt8 hlt,
      List.singleton_append]
  · have hhigh := hdigit (byte.toNat / 16) (by omega)
    have hlow := hdigit (byte.toNat % 16) (Nat.mod_lt _ (by decide))
    show percentDecode ('%' :: digit (byte.toNat / 16) :: digit (byte.toNat % 16) :: rest) = _
    rw [percentDecode_escape hhigh hlow, Nat.div_add_mod, UInt8.ofNat_toNat]

/-- Escaped bytes are decoded to what they were. -/
theorem percentDecode_flatMap (bytes : List UInt8) :
    percentDecode (bytes.flatMap (percentEscape keep digit)) = bytes := by
  induction bytes with
  | nil => rfl
  | cons byte bytes ih =>
      rw [List.flatMap_cons, percentDecode_percentEscape hkeep hdigit, ih]

theorem percentEscape_injective :
    Function.Injective fun s : List Char ↦ (Utf8.encode s).flatMap (percentEscape keep digit) := by
  intro s s' h
  apply Utf8.encode_injective
  rw [← percentDecode_flatMap hkeep hdigit (Utf8.encode s),
    ← percentDecode_flatMap hkeep hdigit (Utf8.encode s')]
  exact congrArg percentDecode h

end Escape

/-! ## Generic syntax -/

/-- The components of a URI reference. -/
structure Reference where
  scheme : Option (List Char)
  authority : Option (List Char)
  path : List Char
  query : Option (List Char)
  fragment : Option (List Char)
deriving DecidableEq, Repr

/-- The text up to the first of some characters, and the rest from there. -/
def before (stops : List Char) (s : List Char) : List Char × List Char :=
  (s.takeWhile (· ∉ stops), s.dropWhile (· ∉ stops))

/-- A component behind the character that opens it. -/
def opened (mark : Char) (stops : List Char) : List Char → Option (List Char) × List Char
  | [] => (none, [])
  | c :: s =>
      if c = mark then (some (before stops s).1, (before stops s).2) else (none, c :: s)

/-- A scheme, if the text has one. -/
def takeScheme (s : List Char) : Option (List Char) × List Char :=
  match before [':', '/', '?', '#'] s with
  | (c :: scheme, ':' :: rest) => (some (c :: scheme), rest)
  | _ => (none, s)

/-- An authority, if the text has one. -/
def takeAuthority : List Char → Option (List Char) × List Char
  | '/' :: '/' :: s => (some (before ['/', '?', '#'] s).1, (before ['/', '?', '#'] s).2)
  | s => (none, s)

def parse (s : List Char) : Reference :=
  let scheme := takeScheme s
  let authority := takeAuthority scheme.2
  let path := before ['?', '#'] authority.2
  let query := opened '?' ['#'] path.2
  let fragment := opened '#' [] query.2
  ⟨scheme.1, authority.1, path.1, query.1, fragment.1⟩

theorem before_append {stops s rest : List Char} (hs : ∀ c ∈ s, c ∉ stops)
    (hrest : ∀ c, rest.head? = some c → c ∈ stops) : before stops (s ++ rest) = (s, rest) := by
  have htake : rest.takeWhile (· ∉ stops) = [] := by
    cases rest with
    | nil => rfl
    | cons c rest => simp [hrest c rfl]
  have hdrop : rest.dropWhile (· ∉ stops) = rest := by
    cases rest with
    | nil => rfl
    | cons c rest => simp [hrest c rfl]
  unfold before
  rw [List.takeWhile_append_of_pos (by simpa using hs), htake,
    List.dropWhile_append_of_pos (by simpa using hs), hdrop, List.append_nil]

theorem takeScheme_append {scheme rest : List Char} (hne : scheme ≠ [])
    (h : ∀ c ∈ scheme, c ∉ [':', '/', '?', '#']) :
    takeScheme (scheme ++ ':' :: rest) = (some scheme, rest) := by
  obtain ⟨c, scheme, rfl⟩ := List.exists_cons_of_ne_nil hne
  unfold takeScheme
  rw [before_append h (by simp)]
  rfl

theorem takeAuthority_append {authority rest : List Char}
    (h : ∀ c ∈ authority, c ∉ ['/', '?', '#'])
    (hrest : ∀ c, rest.head? = some c → c ∈ ['/', '?', '#']) :
    takeAuthority ('/' :: '/' :: (authority ++ rest)) = (some authority, rest) := by
  show (some (before ['/', '?', '#'] (authority ++ rest)).1, _) = _
  rw [before_append h hrest]

theorem opened_append {mark : Char} {stops s rest : List Char} (h : ∀ c ∈ s, c ∉ stops)
    (hrest : ∀ c, rest.head? = some c → c ∈ stops) :
    opened mark stops (mark :: (s ++ rest)) = (some s, rest) := by
  show (if mark = mark then _ else _) = _
  rw [if_pos rfl, before_append h hrest]

/-- A query behind its mark, if there is one. -/
def queryPart (query : Option (List Char)) : List Char := query.elim [] ('?' :: ·)

/-- Components that hold no mark of a later component are read back. -/
theorem parse_eq {scheme authority path : List Char} {query : Option (List Char)}
    (hne : scheme ≠ []) (hscheme : ∀ c ∈ scheme, c ∉ [':', '/', '?', '#'])
    (hauthority : ∀ c ∈ authority, c ∉ ['/', '?', '#'])
    (hpath : ∀ c ∈ path, c ∉ ['?', '#']) (hquery : ∀ q ∈ query, '#' ∉ q) :
    parse (scheme ++ ':' :: '/' :: '/' :: (authority ++ ('/' :: path ++ queryPart query))) =
      ⟨some scheme, some authority, '/' :: path, query, none⟩ := by
  have hhead : ∀ c, (queryPart query).head? = some c → c ∈ ['?', '#'] := by
    cases query with
    | none => simp [queryPart]
    | some q => simp [queryPart]
  have hpath' : ∀ c ∈ '/' :: path, c ∉ ['?', '#'] :=
    List.forall_mem_cons.mpr ⟨by decide, hpath⟩
  unfold parse
  rw [takeScheme_append hne hscheme]
  dsimp only
  rw [takeAuthority_append hauthority (by simp)]
  dsimp only
  rw [before_append hpath' hhead]
  cases query with
  | none => rfl
  | some q =>
      have hopened : opened '?' ['#'] (queryPart (some q)) = (some q, []) := by
        have hstops : ∀ c ∈ q, c ∉ ['#'] :=
          fun c hc h ↦ hquery q rfl (List.mem_singleton.mp h ▸ hc)
        have happend : opened '?' ['#'] ('?' :: (q ++ [])) = (some q, []) :=
          opened_append hstops (by simp)
        rwa [List.append_nil] at happend
      rw [hopened]
      rfl

/-! ## Paths -/

/-- Remove the segments `.` and `..` of an absolute path; `kept` are the segments in
front, last first. -/
def removeDotsFrom (kept : List (List Char)) : List (List Char) → List (List Char)
  | [] => kept.reverse
  | [segment] =>
      if segment = ['.'] then kept.reverse ++ [[]]
      else if segment = ['.', '.'] then kept.tail.reverse ++ [[]]
      else kept.reverse ++ [segment]
  | segment :: next :: segments =>
      if segment = ['.'] then removeDotsFrom kept (next :: segments)
      else if segment = ['.', '.'] then removeDotsFrom kept.tail (next :: segments)
      else removeDotsFrom (segment :: kept) (next :: segments)

def removeDotSegments (segments : List (List Char)) : List (List Char) :=
  removeDotsFrom [] segments

/-- The segments of an absolute path. -/
def segments (path : List Char) : List (List Char) := (path.splitOn '/').tail

theorem removeDotsFrom_of_plain {ss : List (List Char)}
    (h : ∀ s ∈ ss, s ≠ ['.'] ∧ s ≠ ['.', '.']) (kept : List (List Char)) :
    removeDotsFrom kept ss = kept.reverse ++ ss := by
  induction ss generalizing kept with
  | nil => simp [removeDotsFrom]
  | cons s ss ih =>
      obtain ⟨⟨hdot, hdots⟩, hss⟩ := List.forall_mem_cons.mp h
      cases ss with
      | nil => rw [removeDotsFrom, if_neg hdot, if_neg hdots]
      | cons next ss =>
          rw [removeDotsFrom, if_neg hdot, if_neg hdots, ih hss, List.reverse_cons,
            List.append_assoc]
          rfl

theorem removeDotSegments_of_plain {ss : List (List Char)}
    (h : ∀ s ∈ ss, s ≠ ['.'] ∧ s ≠ ['.', '.']) : removeDotSegments ss = ss :=
  removeDotsFrom_of_plain h []

/-! ## Queries -/

/-- A key and a value; a pair without `=` has an empty value. -/
def splitPair (pair : List Char) : List Char × List Char :=
  (pair.takeWhile (· ≠ '='), (pair.dropWhile (· ≠ '=')).tail)

theorem splitPair_append {key value : List Char} (hkey : '=' ∉ key) :
    splitPair (key ++ '=' :: value) = (key, value) := by
  have hall : ∀ c ∈ key, (c ≠ '=' : Bool) = true := by
    simpa using fun c hc (h : c = '=') ↦ hkey (h ▸ hc)
  unfold splitPair
  rw [List.takeWhile_append_of_pos hall, List.dropWhile_append_of_pos hall]
  simp

/-! ## Normal forms -/

/-- A URI with its dot segments removed and its escapes decoded. -/
structure Normal where
  scheme : Option (List Char)
  authority : Option (List Char)
  segments : List (List UInt8)
  query : List (List UInt8 × List UInt8)
  fragment : Option (List Char)
deriving DecidableEq, Repr

def Reference.normal (r : Reference) : Normal where
  scheme := r.scheme
  authority := r.authority
  segments := (removeDotSegments (segments r.path)).map percentDecode
  query := (r.query.elim [] fun q ↦ q.splitOn '&').map fun pair ↦
    ((percentDecode (splitPair pair).1), percentDecode (splitPair pair).2)
  fragment := r.fragment

/-- The normal form of the URI that a text is. -/
def normalize (s : List Char) : Normal := (parse s).normal

end Foundation.Uri
