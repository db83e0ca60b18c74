import FrankenSnowflake.Foundation.Ascii
import FrankenSnowflake.Core.SqlLexemes
import FrankenSnowflake.Core.SqlRead

/-!
# The lexer on bytes

The source scans bytes and slices the text between two indices, which panics off
a character boundary.  Every byte that an arm compares with is ASCII, so the
arms run here on the bytes as on characters with their codes; the arm for a
symbol takes the whole character, and a backslash in a string takes one byte,
which may be the first of a longer character.  On the bytes of a text this lexer
never slices off a boundary and finds the tokens of the lexer on characters.
-/

namespace FrankenSnowflake.SqlLexer

open Foundation.Utf8
open Foundation.Ascii (isAlpha_eq isUpper_eq isLower_eq)

/-- Bytes as the characters with their codes. -/
def ofBytes (bs : List UInt8) : List Char := bs.map Char.ofUInt8

/-- The bytes that the token at `b` takes. -/
def tokenBytes (b : UInt8) (rest : List UInt8) : Nat :=
  let s := scanToken (Char.ofUInt8 b) (ofBytes rest)
  if s.kind = .symbol then (firstChar? (b :: rest)).elim 1 Char.utf8Size else s.text.length

/-- The outer loop of `lex` at byte `start`; `none` is the panic of a slice off a
character boundary. -/
def lexBytesFrom : Nat → Nat → List UInt8 → Option SqlLex
  | 0, _, _ | _, _, [] => some ⟨[], false, false⟩
  | fuel + 1, start, b :: rest =>
      let s := scanToken (Char.ofUInt8 b) (ofBytes rest)
      let n := tokenBytes b rest
      (decode ((b :: rest).take n)).bind fun text ↦
        (lexBytesFrom fuel (start + n) ((b :: rest).drop n)).map fun tail ↦
          { tokens := ⟨s.kind, text, start⟩ :: tail.tokens
            unterminated := s.unterminated || tail.unterminated
            ambiguous := s.ambiguous || tail.ambiguous }

def lexBytes (bytes : List UInt8) : Option SqlLex := lexBytesFrom bytes.length 0 bytes

/-! ## The bytes of a text -/

/-- The bytes of a text, as characters. -/
def bytesOf (s : List Char) : List Char := ofBytes (encode s)

@[simp] theorem bytesOf_nil : bytesOf [] = [] := rfl

theorem bytesOf_append (s t : List Char) : bytesOf (s ++ t) = bytesOf s ++ bytesOf t := by
  simp [bytesOf, ofBytes]

theorem bytesOf_cons_ascii {c : Char} (hc : c.toNat < 0x80) (s : List Char) :
    bytesOf (c :: s) = c :: bytesOf s := by
  rw [bytesOf, ofBytes, encode_cons, List.map_append, utf8EncodeChar_ascii hc]
  rfl

/-- Characters beyond ASCII. -/
def Wide (cs : List Char) : Prop := ∀ c ∈ cs, ¬ c.toNat < 0x80

theorem bytesOf_cons (c : Char) (s : List Char) : bytesOf (c :: s) = bytesOf [c] ++ bytesOf s :=
  bytesOf_append [c] s

theorem wide_bytesOf {c : Char} (hc : ¬ c.toNat < 0x80) : Wide (bytesOf [c]) := by
  intro d hd
  obtain ⟨b, hb, rfl⟩ : ∃ b ∈ encode [c], Char.ofUInt8 b = d := List.mem_map.mp hd
  exact UInt8.not_lt.mpr (le_of_mem_utf8EncodeChar hc (by simpa using hb))

theorem exists_bytesOf_cons (c : Char) (s : List Char) : ∃ d cs, bytesOf (c :: s) = d :: cs ∧
    d ∈ bytesOf [c] := by
  obtain ⟨b, bs, hbytes⟩ := List.exists_cons_of_ne_nil (utf8EncodeChar_ne_nil c)
  rw [bytesOf_cons, show bytesOf [c] = ofBytes (b :: bs) by simp [bytesOf, hbytes]]
  exact ⟨_, _, rfl, List.mem_cons_self⟩

theorem length_bytesOf (s : List Char) : (bytesOf s).length = utf8Len s := by
  induction s with
  | nil => rfl
  | cons c s ih =>
      rw [bytesOf, ofBytes, List.length_map, encode_cons, List.length_append,
        String.length_utf8EncodeChar, utf8Len, List.map_cons, List.sum_cons]
      exact congrArg _ ((List.length_map _).symm.trans ih)

/-- An ASCII character is the first byte of a text where it is its first
character. -/
theorem head?_bytesOf {d : Char} (hd : d.toNat < 0x80) (s : List Char) :
    (bytesOf s).head? = some d ↔ s.head? = some d := by
  cases s with
  | nil => rfl
  | cons c s =>
      by_cases hc : c.toNat < 0x80
      · rw [bytesOf_cons_ascii hc]
        rfl
      · obtain ⟨e, cs, hbytes, he⟩ := exists_bytesOf_cons c s
        rw [hbytes]
        refine iff_of_false (fun heq ↦ ?_) fun heq ↦ ?_
        · exact wide_bytesOf hc e he (Option.some.inj heq ▸ hd)
        · exact hc (Option.some.inj heq ▸ hd)

/-- A class of characters that does not tell characters beyond ASCII apart. -/
def IgnoresWide (p : Char → Bool) : Prop :=
  ∀ c d : Char, ¬ c.toNat < 0x80 → ¬ d.toNat < 0x80 → p c = p d

theorem takeWhile_bytesOf {p : Char → Bool} (hp : IgnoresWide p) (s : List Char) :
    (bytesOf s).takeWhile p = bytesOf (s.takeWhile p) ∧
      (bytesOf s).dropWhile p = bytesOf (s.dropWhile p) := by
  induction s with
  | nil => exact ⟨rfl, rfl⟩
  | cons c s ih =>
      by_cases hc : c.toNat < 0x80
      · rw [bytesOf_cons_ascii hc, List.takeWhile_cons, List.dropWhile_cons, List.takeWhile_cons,
          List.dropWhile_cons]
        split
        · rw [bytesOf_cons_ascii hc, ih.1]
          exact ⟨rfl, ih.2⟩
        · rw [bytesOf_cons_ascii hc]
          exact ⟨rfl, rfl⟩
      · have hall (d : Char) (hd : d ∈ bytesOf [c]) : p d = p c := hp d c (wide_bytesOf hc d hd) hc
        rw [List.takeWhile_cons, List.dropWhile_cons]
        split
        next hpc =>
          have hpos (d : Char) (hd : d ∈ bytesOf [c]) : p d = true := (hall d hd).trans hpc
          rw [bytesOf_cons, bytesOf_cons c (s.takeWhile p), List.takeWhile_append_of_pos hpos,
            List.dropWhile_append_of_pos hpos, ih.1]
          exact ⟨rfl, ih.2⟩
        next hpc =>
          obtain ⟨d, cs, hbytes, hd⟩ := exists_bytesOf_cons c s
          have hneg : ¬ p d = true := fun hpd ↦ hpc ((hall d hd).symm.trans hpd)
          rw [hbytes, List.takeWhile_cons_of_neg hneg, List.dropWhile_cons_of_neg hneg]
          exact ⟨rfl, rfl⟩

/-! ## The arms on bytes -/

def Body.bytes (b : Body) : Body := ⟨bytesOf b.text, bytesOf b.rest, b.closed⟩

theorem Body.bytes_push (b : Body) (cs : List Char) :
    (b.push cs).bytes = b.bytes.push (bytesOf cs) := by
  simp [Body.bytes, Body.push, bytesOf_append]

theorem Body.push_push (b : Body) (cs ds : List Char) :
    (b.push ds).push cs = b.push (cs ++ ds) := by
  simp [Body.push]

@[simp] theorem Body.push_nil (b : Body) : b.push [] = b := rfl

theorem ne_of_wide {c d : Char} (hc : ¬ c.toNat < 0x80) (hd : d.toNat < 0x80) : c ≠ d := by
  rintro rfl
  exact hc hd

variable {cs : List Char}

theorem stringBody_wide (hcs : Wide cs) (s : List Char) :
    stringBody (cs ++ s) = (stringBody s).push cs := by
  induction cs with
  | nil => rfl
  | cons c cs ih =>
      obtain ⟨hc, hcs⟩ := List.forall_mem_cons.mp hcs
      rw [List.cons_append, stringBody_cons (ne_of_wide hc (by decide)) (ne_of_wide hc (by decide)),
        ih hcs, Body.push_push]
      rfl

theorem identifierBody_wide (hcs : Wide cs) (s : List Char) :
    identifierBody (cs ++ s) = (identifierBody s).push cs := by
  induction cs with
  | nil => rfl
  | cons c cs ih =>
      obtain ⟨hc, hcs⟩ := List.forall_mem_cons.mp hcs
      rw [List.cons_append, identifierBody_cons (ne_of_wide hc (by decide)), ih hcs, Body.push_push]
      rfl

theorem dollarBody_cons {c : Char} {s : List Char} (h : ¬ (c = '$' ∧ s.head? = some '$')) :
    dollarBody (c :: s) = (dollarBody s).push [c] := by
  refine dollarBody.eq_3 c s fun rest hc hs ↦ h ⟨hc, ?_⟩
  rw [hs]
  rfl

theorem blockBody_cons {c : Char} {s : List Char} (h : ¬ (c = '*' ∧ s.head? = some '/')) :
    blockBody (c :: s) = (blockBody s).push [c] := by
  refine blockBody.eq_3 c s fun rest hc hs ↦ h ⟨hc, ?_⟩
  rw [hs]
  rfl

theorem blockNested_cons {c : Char} {s : List Char} (h : ¬ (c = '*' ∧ s.head? = some '/')) :
    blockNested (c :: s) = ((c == '/' && s.head? == some '*') || blockNested s) := by
  refine blockNested.eq_3 c s fun rest hc hs ↦ h ⟨hc, ?_⟩
  rw [hs]
  rfl

theorem dollarBody_wide (hcs : Wide cs) (s : List Char) :
    dollarBody (cs ++ s) = (dollarBody s).push cs := by
  induction cs with
  | nil => rfl
  | cons c cs ih =>
      obtain ⟨hc, hcs⟩ := List.forall_mem_cons.mp hcs
      rw [List.cons_append, dollarBody_cons fun h ↦ ne_of_wide hc (by decide) h.1, ih hcs,
        Body.push_push]
      rfl

theorem blockBody_wide (hcs : Wide cs) (s : List Char) :
    blockBody (cs ++ s) = (blockBody s).push cs ∧ blockNested (cs ++ s) = blockNested s := by
  induction cs with
  | nil => exact ⟨rfl, rfl⟩
  | cons c cs ih =>
      obtain ⟨hc, hcs⟩ := List.forall_mem_cons.mp hcs
      have hstar : ¬ (c = '*' ∧ (cs ++ s).head? = some '/') := fun h ↦
        ne_of_wide hc (by decide) h.1
      have hslash : (c == '/') = false := beq_eq_false_iff_ne.mpr (ne_of_wide hc (by decide))
      rw [List.cons_append, blockBody_cons hstar, blockNested_cons hstar, hslash, (ih hcs).1,
        (ih hcs).2, Body.push_push]
      exact ⟨rfl, rfl⟩

/-- A backslash takes the first byte of a character; the others follow as they are. -/
theorem stringBody_escape (c : Char) (s : List Char) :
    stringBody ('\\' :: (bytesOf [c] ++ s)) = (stringBody s).push ('\\' :: bytesOf [c]) := by
  obtain ⟨d, ds, hbytes, hwide⟩ : ∃ d ds, bytesOf [c] = d :: ds ∧ Wide ds := by
    by_cases hc : c.toNat < 0x80
    · exact ⟨c, [], bytesOf_cons_ascii hc [], nofun⟩
    · obtain ⟨d, ds, hbytes, -⟩ := exists_bytesOf_cons c []
      exact ⟨d, ds, hbytes, fun e he ↦ wide_bytesOf hc e (hbytes ▸ List.mem_cons_of_mem d he)⟩
  rw [hbytes, List.cons_append, stringBody.eq_3, stringBody_wide hwide, Body.push_push]
  rfl

theorem stringBody_char {c : Char} (hescape : c ≠ '\\') (hquote : c ≠ '\'') (s : List Char) :
    stringBody (bytesOf [c] ++ s) = (stringBody s).push (bytesOf [c]) := by
  by_cases hc : c.toNat < 0x80
  · rw [bytesOf_cons_ascii hc, bytesOf_nil, List.singleton_append, stringBody_cons hescape hquote]
  · exact stringBody_wide (wide_bytesOf hc) s

theorem identifierBody_char {c : Char} (hquote : c ≠ '"') (s : List Char) :
    identifierBody (bytesOf [c] ++ s) = (identifierBody s).push (bytesOf [c]) := by
  by_cases hc : c.toNat < 0x80
  · rw [bytesOf_cons_ascii hc, bytesOf_nil, List.singleton_append, identifierBody_cons hquote]
  · exact identifierBody_wide (wide_bytesOf hc) s

theorem stringBody_bytesOf (s : List Char) : stringBody (bytesOf s) = (stringBody s).bytes := by
  fun_induction stringBody s with
  | case1 => rfl
  | case2 => rfl
  | case3 c rest ih =>
      rw [Body.bytes_push, bytesOf_cons_ascii (c := '\\') (by decide),
        bytesOf_cons_ascii (c := '\\') (by decide), bytesOf_cons, stringBody_escape, ih]
  | case4 rest ih =>
      rw [Body.bytes_push, bytesOf_cons_ascii (by decide), bytesOf_cons_ascii (by decide),
        stringBody.eq_4, ih]
      rfl
  | case5 rest hne =>
      have hquote : (bytesOf rest).head? ≠ some '\'' := by
        rw [ne_eq, head?_bytesOf (by decide)]
        exact fun hhead ↦ hne rest.tail (eq_cons_of_head? hhead)
      rw [bytesOf_cons_ascii (by decide), stringBody_quote hquote]
      rfl
  | case6 c rest hlone hescape hdouble hquote ih =>
      have hbackslash : c ≠ '\\' := by
        rintro rfl
        cases rest with
        | nil => exact hlone rfl rfl
        | cons d rest => exact hescape d rest rfl rfl
      rw [Body.bytes_push, bytesOf_cons, stringBody_char hbackslash hquote, ih]

theorem identifierBody_bytesOf (s : List Char) :
    identifierBody (bytesOf s) = (identifierBody s).bytes := by
  fun_induction identifierBody s with
  | case1 => rfl
  | case2 rest ih =>
      rw [Body.bytes_push, bytesOf_cons_ascii (by decide), bytesOf_cons_ascii (by decide),
        identifierBody.eq_2, ih]
      rfl
  | case3 rest hne =>
      have hquote : (bytesOf rest).head? ≠ some '"' := by
        rw [ne_eq, head?_bytesOf (by decide)]
        exact fun hhead ↦ hne rest.tail (eq_cons_of_head? hhead)
      rw [bytesOf_cons_ascii (by decide), identifierBody_quote hquote]
      rfl
  | case4 c rest hdouble hquote ih =>
      rw [Body.bytes_push, bytesOf_cons, identifierBody_char hquote, ih]

theorem dollarBody_bytesOf (s : List Char) : dollarBody (bytesOf s) = (dollarBody s).bytes := by
  fun_induction dollarBody s with
  | case1 => rfl
  | case2 rest =>
      rw [bytesOf_cons_ascii (by decide), bytesOf_cons_ascii (by decide)]
      rfl
  | case3 c rest hne ih =>
      rw [Body.bytes_push]
      by_cases hc : c.toNat < 0x80
      · have hclose : ¬ (c = '$' ∧ (bytesOf rest).head? = some '$') := by
          rintro ⟨hdollar, hhead⟩
          exact hne rest.tail hdollar (eq_cons_of_head? ((head?_bytesOf (by decide) rest).mp hhead))
        rw [bytesOf_cons_ascii hc, dollarBody_cons hclose, ih, bytesOf_cons_ascii hc]
        rfl
      · rw [bytesOf_cons, dollarBody_wide (wide_bytesOf hc), ih]

theorem blockBody_bytesOf (s : List Char) :
    blockBody (bytesOf s) = (blockBody s).bytes ∧ blockNested (bytesOf s) = blockNested s := by
  fun_induction blockBody s with
  | case1 => exact ⟨rfl, rfl⟩
  | case2 rest =>
      rw [bytesOf_cons_ascii (by decide), bytesOf_cons_ascii (by decide)]
      exact ⟨rfl, rfl⟩
  | case3 c rest hne ih =>
      have hclose : ¬ (c = '*' ∧ rest.head? = some '/') := fun h ↦
        hne rest.tail h.1 (eq_cons_of_head? h.2)
      rw [Body.bytes_push, blockNested_cons hclose]
      by_cases hc : c.toNat < 0x80
      · have hbytes : ¬ (c = '*' ∧ (bytesOf rest).head? = some '/') := by
          rwa [head?_bytesOf (by decide)]
        have hnested : ((bytesOf rest).head? == some '*') = (rest.head? == some '*') := by
          rw [Bool.eq_iff_iff, beq_iff_eq, beq_iff_eq, head?_bytesOf (by decide)]
        rw [bytesOf_cons_ascii hc, blockBody_cons hbytes, blockNested_cons hbytes, ih.1, ih.2,
          hnested, bytesOf_cons_ascii hc]
        exact ⟨rfl, rfl⟩
      · have hslash : (c == '/') = false := beq_eq_false_iff_ne.mpr (ne_of_wide hc (by decide))
        have hwide := blockBody_wide (wide_bytesOf hc) (bytesOf rest)
        rw [bytesOf_cons, hwide.1, hwide.2, ih.1, ih.2, hslash]
        exact ⟨rfl, rfl⟩

/-! ## The tokens on bytes -/

def Scanned.bytes (s : Scanned) : Scanned :=
  { s with text := bytesOf s.text, rest := bytesOf s.rest }

theorem isAlphanum_lt {c : Char} (h : c.isAlphanum) : c.toNat < 0x80 := by
  simp only [Char.isAlphanum, isAlpha_eq, isUpper_eq, isLower_eq, Char.isDigit,
    Bool.or_eq_true, Bool.and_eq_true, decide_eq_true_eq, ge_iff_le, UInt32.le_iff_toNat_le] at h
  have hz : 'z'.val.toNat = 122 := rfl
  have hZ : 'Z'.val.toNat = 90 := rfl
  have h9 : '9'.val.toNat = 57 := rfl
  rw [hz, hZ, h9] at h
  show c.val.toNat < 128
  omega

theorem ignoresWide_of_false {p : Char → Bool} (hp : ∀ c, p c → c.toNat < 0x80) :
    IgnoresWide p := by
  intro c d hc hd
  rw [Bool.eq_false_iff.mpr (mt (hp c) hc), Bool.eq_false_iff.mpr (mt (hp d) hd)]

theorem isAsciiWhitespace_lt {c : Char} (h : isAsciiWhitespace c) : c.toNat < 0x80 := by
  simp only [isAsciiWhitespace, Bool.or_eq_true, decide_eq_true_eq] at h
  rcases h with (((rfl | rfl) | rfl) | rfl) | rfl <;> decide

theorem isIdentifierByte_lt {c : Char} (h : isIdentifierByte c) : c.toNat < 0x80 := by
  simp only [isIdentifierByte, Bool.or_eq_true, decide_eq_true_eq] at h
  rcases h with (h | rfl) | rfl
  · exact isAlphanum_lt h
  · decide
  · decide

theorem isNumberByte_lt {c : Char} (h : c.isAlphanum || c = '.') : c.toNat < 0x80 := by
  rcases (Bool.or_eq_true _ _).mp h with h | h
  · exact isAlphanum_lt h
  · rw [of_decide_eq_true h]
    decide

theorem runOf_bytesOf {p : Char → Bool} (hp : IgnoresWide p) (kind : SqlTokenKind)
    (s : List Char) : runOf kind p (bytesOf s) = (runOf kind p s).bytes := by
  simp only [runOf, Scanned.bytes, takeWhile_bytesOf hp]

theorem tail_bytesOf {d : Char} (hd : d.toNat < 0x80) {s : List Char} (h : s.head? = some d) :
    (bytesOf s).tail = bytesOf s.tail := by
  rw [eq_cons_of_head? h, bytesOf_cons_ascii hd]
  rfl

theorem head?_any_bytesOf {p : Char → Bool} (hp : ∀ c, p c → c.toNat < 0x80) (s : List Char) :
    (bytesOf s).head?.any p = s.head?.any p := by
  cases s with
  | nil => rfl
  | cons c s =>
      by_cases hc : c.toNat < 0x80
      · rw [bytesOf_cons_ascii hc]
        rfl
      · obtain ⟨d, cs, hbytes, hd⟩ := exists_bytesOf_cons c s
        rw [hbytes]
        show p d = p c
        exact ignoresWide_of_false hp d c (wide_bytesOf hc d hd) hc

theorem StartsLine.bytes {c : Char} {rest : List Char} :
    StartsLine c (bytesOf rest) ↔ StartsLine c rest := by
  unfold StartsLine
  rw [head?_bytesOf (by decide), head?_bytesOf (by decide)]

theorem IsSymbol.bytes {c : Char} {rest : List Char} (h : IsSymbol c rest) :
    IsSymbol c (bytesOf rest) := by
  refine { h with
    line := StartsLine.bytes.not.mpr h.line, block := ?_, dollar := ?_, var := ?_ }
  · rw [head?_bytesOf (by decide)]
    exact h.block
  · rw [head?_bytesOf (by decide)]
    exact h.dollar
  · rw [head?_any_bytesOf fun c hc ↦ ?_]
    · exact h.var
    · rcases (Bool.or_eq_true _ _).mp hc with hc | hc
      · exact isAlphanum_lt hc
      · rw [of_decide_eq_true hc]
        decide

/-- At an ASCII character the lexer finds the same token on the bytes. -/
theorem Arm.bytes {c : Char} {rest : List Char} {s : Scanned} (h : Arm c rest s)
    (hc : c.toNat < 0x80) : Arm c (bytesOf rest) s.bytes := by
  cases h with
  | whitespace h =>
      rw [← runOf_bytesOf (ignoresWide_of_false fun _ ↦ isAsciiWhitespace_lt),
        bytesOf_cons_ascii hc]
      exact .whitespace h
  | line h =>
      have hline : IgnoresWide (· ≠ '\n') := fun d e hd he ↦
        (decide_eq_true (ne_of_wide hd (by decide))).trans
          (decide_eq_true (ne_of_wide he (by decide))).symm
      have harm := Arm.line (StartsLine.bytes.mpr h)
      rwa [lineEnd, ← bytesOf_cons_ascii hc, (takeWhile_bytesOf hline _).1,
        (takeWhile_bytesOf hline _).2] at harm
  | block hslash h =>
      have harm := Arm.block hslash ((head?_bytesOf (by decide) rest).mpr h)
      rw [tail_bytesOf (by decide) h, (blockBody_bytesOf _).1, (blockBody_bytesOf _).2] at harm
      rw [Scanned.bytes, bytesOf_cons_ascii (by decide), bytesOf_cons_ascii (by decide)]
      exact harm
  | string hquote =>
      have harm : Arm c (bytesOf rest) _ := .string hquote
      rw [stringBody_bytesOf] at harm
      rw [Scanned.bytes, bytesOf_cons_ascii hc]
      exact harm
  | identifier hquote =>
      have harm : Arm c (bytesOf rest) _ := .identifier hquote
      rw [identifierBody_bytesOf] at harm
      rw [Scanned.bytes, bytesOf_cons_ascii hc]
      exact harm
  | dollar hdollar h =>
      have harm := Arm.dollar hdollar ((head?_bytesOf (by decide) rest).mpr h)
      rw [tail_bytesOf (by decide) h, dollarBody_bytesOf] at harm
      rw [Scanned.bytes, bytesOf_cons_ascii (by decide), bytesOf_cons_ascii (by decide)]
      exact harm
  | var hdollar h =>
      have hword : ∀ n : Char, (n.isAlphanum || n = '_') → n.toNat < 0x80 := by
        intro n hn
        rcases (Bool.or_eq_true _ _).mp hn with hn | hn
        · exact isAlphanum_lt hn
        · rw [of_decide_eq_true hn]
          decide
      have hwide := ignoresWide_of_false fun _ ↦ isIdentifierByte_lt
      have harm := Arm.var hdollar ((head?_any_bytesOf hword rest).trans h)
      rw [(takeWhile_bytesOf hwide rest).1, (takeWhile_bytesOf hwide rest).2] at harm
      rw [Scanned.bytes, bytesOf_cons_ascii hc]
      exact harm
  | semicolon hsemicolon =>
      rw [Scanned.bytes, bytesOf_cons_ascii hc]
      exact .semicolon hsemicolon
  | word h =>
      rw [← runOf_bytesOf (ignoresWide_of_false fun _ ↦ isIdentifierByte_lt),
        bytesOf_cons_ascii hc]
      exact .word h
  | number h =>
      rw [← runOf_bytesOf (ignoresWide_of_false fun _ ↦ isNumberByte_lt), bytesOf_cons_ascii hc]
      exact .number h
  | symbol h =>
      rw [Scanned.bytes, bytesOf_cons_ascii hc]
      exact .symbol h.bytes

theorem isSymbol_wide {c : Char} (hc : ¬ c.toNat < 0x80) (rest : List Char) :
    IsSymbol c rest where
  whitespace := Bool.eq_false_iff.mpr (mt isAsciiWhitespace_lt hc)
  line := by
    rintro (⟨rfl, -⟩ | ⟨rfl, -⟩)
    · exact hc (by decide)
    · exact hc (by decide)
  block h := ne_of_wide hc (by decide) h.1
  quote := ne_of_wide hc (by decide)
  doubleQuote := ne_of_wide hc (by decide)
  dollar h := ne_of_wide hc (by decide) h.1
  var h := ne_of_wide hc (by decide) h.1
  semicolon := ne_of_wide hc (by decide)
  alpha := Bool.eq_false_iff.mpr fun h ↦ hc (isAlphanum_lt (by simp [Char.isAlphanum, h]))
  underscore := ne_of_wide hc (by decide)
  digit := Bool.eq_false_iff.mpr fun h ↦ hc (isAlphanum_lt (by simp [Char.isAlphanum, h]))

theorem length_encode (s : List Char) : (encode s).length = utf8Len s := by
  rw [← length_bytesOf, bytesOf, ofBytes, List.length_map]

theorem Arm.text_of_symbol {c : Char} {rest : List Char} {s : Scanned} (h : Arm c rest s)
    (hkind : s.kind = .symbol) : s.text = [c] := by
  cases h with
  | symbol => rfl
  | whitespace | line | block | string | identifier | dollar | var | semicolon | word | number =>
      cases hkind

/-- At the first byte of a character the lexer on bytes finds its token. -/
theorem scanToken_encode {c : Char} {rest : List Char} {b : UInt8} {bs : List UInt8}
    (h : encode (c :: rest) = b :: bs) :
    (scanToken (Char.ofUInt8 b) (ofBytes bs)).kind = (scanToken c rest).kind ∧
      (scanToken (Char.ofUInt8 b) (ofBytes bs)).unterminated = (scanToken c rest).unterminated ∧
      (scanToken (Char.ofUInt8 b) (ofBytes bs)).ambiguous = (scanToken c rest).ambiguous ∧
      tokenBytes b bs = utf8Len (scanToken c rest).text := by
  have hbytes : bytesOf (c :: rest) = Char.ofUInt8 b :: ofBytes bs := congrArg ofBytes h
  have hfirst : firstChar? (b :: bs) = some c := by
    rw [← h]
    exact firstChar?_encode c (encode rest)
  have harm := arm_scanToken c rest
  by_cases hc : c.toNat < 0x80
  · rw [bytesOf_cons_ascii hc] at hbytes
    obtain ⟨hb, hbs⟩ := List.cons.inj hbytes
    have hscan : scanToken (Char.ofUInt8 b) (ofBytes bs) = (scanToken c rest).bytes := by
      rw [← hb, ← hbs]
      exact scanToken_eq (harm.bytes hc)
    rw [tokenBytes, hscan, hfirst]
    refine ⟨rfl, rfl, rfl, ?_⟩
    split_ifs with hkind
    · rw [harm.text_of_symbol hkind]
      rfl
    · exact length_bytesOf _
  · obtain ⟨d, cs, hcons, hd⟩ := exists_bytesOf_cons c rest
    rw [hcons] at hbytes
    have hwide : ¬ (Char.ofUInt8 b).toNat < 0x80 := (List.cons.inj hbytes).1 ▸ wide_bytesOf hc d hd
    have hscan := scanToken_eq (.symbol (isSymbol_wide hwide (ofBytes bs)))
    have hscan' := scanToken_eq (.symbol (isSymbol_wide hc rest))
    rw [tokenBytes, hscan, hscan', hfirst]
    exact ⟨rfl, rfl, rfl, rfl⟩

theorem lexBytesFrom_encode {fuel start : Nat} (s : List Char) (h : (encode s).length ≤ fuel) :
    lexBytesFrom fuel start (encode s) = some (lexFrom s.length start s) := by
  induction s using lex_induction generalizing fuel start with
  | nil => cases fuel <;> rfl
  | cons c rest ih =>
      obtain ⟨b, bs, hbytes⟩ : ∃ b bs, encode (c :: rest) = b :: bs :=
        List.exists_cons_of_ne_nil (List.append_ne_nil_of_left_ne_nil (utf8EncodeChar_ne_nil c) _)
      obtain ⟨hkind, hunterminated, hambiguous, hn⟩ := scanToken_encode hbytes
      have hsplit : b :: bs = encode (scanToken c rest).text ++ encode (scanToken c rest).rest := by
        rw [← hbytes, ← encode_append, (arm_scanToken c rest).append_eq]
      have hlength := length_encode (scanToken c rest).text
      rw [hbytes] at h ⊢
      cases fuel with
      | zero => cases h
      | succ fuel =>
          have hshorter : (encode (scanToken c rest).rest).length ≤ fuel := by
            have hpos : 0 < (encode (scanToken c rest).text).length := by
              rw [(arm_scanToken c rest).text_eq, encode_cons, List.length_append,
                String.length_utf8EncodeChar]
              exact Nat.add_pos_left (Char.utf8Size_pos c) _
            have hsum := congrArg List.length hsplit
            rw [List.length_append] at hsum
            omega
          have hfuel := lexFrom_fuel (start + utf8Len (scanToken c rest).text)
            (length_rest_scanToken c rest) (Nat.le_refl (scanToken c rest).rest.length)
          simp only [lexBytesFrom, lexFrom, List.length_cons, hkind, hunterminated, hambiguous, hn]
          rw [hsplit, ← hlength, List.take_left, List.drop_left, decode_encode, Option.bind_some,
            ih hshorter, hlength, hfuel]
          rfl

/-- On the bytes of a text the lexer slices at character boundaries only, and
finds the tokens of the text. -/
theorem lexBytes_encode (sql : List Char) : lexBytes (encode sql) = some (lex sql) :=
  lexBytesFrom_encode sql (Nat.le_refl _)

/-! ## Lossless and compositional -/

/-- The tokens make up the text, and each starts where those before it end: at
the bytes of a text, that is at a character boundary. -/
structure Lossless (sql : List Char) (l : SqlLex) : Prop where
  texts : (l.tokens.map SqlToken.text).flatten = sql
  starts : ∀ k (hk : k < l.tokens.length),
    l.tokens[k].start = (encode ((l.tokens.take k).map SqlToken.text).flatten).length

/-- Lexing the slice of a text from the start of a token to the end of the same
or a later one gives these tokens again, and raises a flag only if one of them
raised it in the text. -/
def SliceStable (sql : List Char) (l : SqlLex) : Prop :=
  ∀ i j (hij : i ≤ j) (hj : j < l.tokens.length),
    ∃ slice l', sliceBytes sql l.tokens[i].start
        (l.tokens[j].start + (encode l.tokens[j].text).length) = some slice ∧
      lexBytes (encode slice) = some l' ∧
      l'.tokens.map (SqlToken.shift l.tokens[i].start) = (l.tokens.drop i).take (j + 1 - i) ∧
      (l'.unterminated → ∃ k, i ≤ k ∧ k ≤ j ∧ (lexemes sql)[k]?.any Lexeme.unterminated) ∧
      (l'.ambiguous → ∃ k, i ≤ k ∧ k ≤ j ∧ (lexemes sql)[k]?.any Lexeme.ambiguous)

theorem map_text_placed (start : Nat) (ls : List Lexeme) :
    (placed start ls).map SqlToken.text = ls.map Lexeme.text := by
  induction ls generalizing start with
  | nil => rfl
  | cons l ls ih => simp [placed, ih]

theorem lossless_lex (sql : List Char) : Lossless sql (lex sql) where
  texts := by
    rw [lex_eq, map_text_placed]
    exact textOf_lexemes sql
  starts k hk := by
    simp only [lex_eq] at hk ⊢
    rw [getElem_placed hk (by simpa using hk), Nat.zero_add, take_placed, map_text_placed,
      length_encode]
    rfl

theorem exists_of_any_slice {ls : List Lexeme} {p : Lexeme → Bool} {i j : Nat}
    (h : ((ls.drop i).take (j + 1 - i)).any p) : ∃ k, i ≤ k ∧ k ≤ j ∧ ls[k]?.any p := by
  obtain ⟨l, hl, hp⟩ := List.any_eq_true.mp h
  obtain ⟨n, hn, hget⟩ := List.mem_iff_getElem.mp hl
  refine ⟨i + n, Nat.le_add_right i n, ?_, ?_⟩
  · rw [List.length_take] at hn
    omega
  · have hlt : i + n < ls.length := by
      rw [List.length_take, List.length_drop] at hn
      omega
    rw [List.getElem_take, List.getElem_drop] at hget
    rw [List.getElem?_eq_getElem hlt, hget]
    exact hp

theorem sliceStable_lex (sql : List Char) : SliceStable sql (lex sql) := by
  intro i j hij hj
  have hlex := lex_eq sql
  have hlen : (lex sql).tokens.length = (lexemes sql).length := by simp [hlex]
  rw [hlen] at hj
  let slice := ((lexemes sql).drop i).take (j + 1 - i)
  have hstart (k : Nat) (hk : k < (lexemes sql).length) :
      (lex sql).tokens[k] =
        ⟨(lexemes sql)[k].kind, (lexemes sql)[k].text, utf8Len (textOf ((lexemes sql).take k))⟩ := by
    simp only [hlex]
    rw [getElem_placed _ hk, Nat.zero_add]
  have htake : (lexemes sql).take (j + 1) = (lexemes sql).take i ++ slice := by
    rw [← List.take_append_drop i ((lexemes sql).take (j + 1)), List.take_take, List.drop_take,
      Nat.min_eq_left (Nat.le_succ_of_le hij)]
  have hsql : sql = textOf ((lexemes sql).take i) ++
      (textOf slice ++ textOf ((lexemes sql).drop (j + 1))) := by
    rw [← List.append_assoc, ← textOf_append, ← htake, ← textOf_append, List.take_append_drop,
      textOf_lexemes]
  have hstop : utf8Len (textOf ((lexemes sql).take j)) + (encode (lexemes sql)[j].text).length =
      utf8Len (textOf ((lexemes sql).take i)) + utf8Len (textOf slice) := by
    rw [length_encode, ← utf8Len_append, ← utf8Len_append, ← textOf_append, ← htake,
      List.take_add_one, List.getElem?_eq_getElem hj, textOf_append]
    simp
  have hinfix : slice <:+: lexemes sql :=
    (List.take_prefix _ _).isInfix.trans (List.drop_suffix i _).isInfix
  have hslice := lex_eq (textOf slice)
  rw [lexemes_of_part hinfix] at hslice
  refine ⟨textOf slice, lex (textOf slice), ?_, lexBytes_encode _, ?_, fun h ↦ ?_, fun h ↦ ?_⟩
  · rw [hstart i (Nat.lt_of_le_of_lt hij hj), hstart j hj]
    dsimp only
    rw [hstop]
    have hcut := sliceBytes_append (textOf ((lexemes sql).take i)) (textOf slice)
      (textOf ((lexemes sql).drop (j + 1)))
    rwa [← hsql] at hcut
  · rw [hstart i (Nat.lt_of_le_of_lt hij hj), hslice, hlex]
    dsimp only
    rw [placed_shift, drop_placed, take_placed, Nat.zero_add, Nat.add_zero]
  · rw [hslice] at h
    exact exists_of_any_slice h
  · rw [hslice] at h
    exact exists_of_any_slice h

/-- Lexing is lossless and compositional. -/
theorem lexBytes_lossless_sliceStable (sql : List Char) :
    ∃ l, lexBytes (encode sql) = some l ∧ Lossless sql l ∧ SliceStable sql l :=
  ⟨lex sql, lexBytes_encode sql, lossless_lex sql, sliceStable_lex sql⟩

end FrankenSnowflake.SqlLexer
