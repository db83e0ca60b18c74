import Mathlib.Algebra.GroupWithZero.Nat
import Mathlib.Data.List.Basic

/-!
# The shared SQL lexer

The lexer every guard of the connector reasons with: statement counting,
read/write classification and redaction all ask it where strings, comments and
quoted identifiers lie.

A Rust `&str` is a `List Char` here.  The source scans bytes, but every byte it
compares with is ASCII, and a continuation byte of a longer character is never
one of those, so the scan stops at the same characters.  `start` is still the
byte offset of a token: the UTF-8 sizes of the characters before it.

Each arm of the source's `match` is a scanner that returns what it consumed and
what it left; `lex` runs them until the text is used up.
-/

namespace FrankenSnowflake.SqlLexer

/-- The kind of one lexed token. -/
inductive SqlTokenKind where
  | whitespace
  | comment
  | word
  | quotedIdentifier
  | stringLiteral
  | dollarString
  | var
  | number
  | semicolon
  | symbol
deriving DecidableEq, Repr

/-- One token: its kind, its exact source text and its byte offset. -/
structure SqlToken where
  kind : SqlTokenKind
  text : List Char
  start : Nat
deriving DecidableEq, Repr

/-- The lexed form of one SQL text. -/
structure SqlLex where
  tokens : List SqlToken
  /-- A string, quoted identifier, dollar string or block comment never closed. -/
  unterminated : Bool
  /-- A `/*` appeared inside a block comment. -/
  ambiguous : Bool
deriving DecidableEq, Repr

namespace SqlToken

/-- Whitespace and comments do not affect meaning. -/
def isTrivia (t : SqlToken) : Bool :=
  match t.kind with
  | .whitespace | .comment => true
  | _ => false

/-- Lower-cased text of a word token. -/
def word? (t : SqlToken) : Option (List Char) :=
  if t.kind = .word then some (t.text.map Char.toLower) else none

end SqlToken

/-! ## Characters -/

/-- `u8::is_ascii_whitespace`: no vertical tab, and nothing beyond ASCII. -/
def isAsciiWhitespace (c : Char) : Bool :=
  c = ' ' || c = '\t' || c = '\n' || c = '\x0c' || c = '\r'

def isIdentifierByte (c : Char) : Bool :=
  c.isAlphanum || c = '_' || c = '$'

/-! ## Scanners for the arms of the lexer -/

/-- What one arm of the lexer consumed and left, and the flags it raised. -/
structure Scanned where
  kind : SqlTokenKind
  text : List Char
  rest : List Char
  unterminated : Bool := false
  ambiguous : Bool := false
deriving DecidableEq, Repr

/-- The body of a delimited token: consumed text, rest, and whether it closed. -/
structure Body where
  text : List Char
  rest : List Char
  closed : Bool
deriving DecidableEq, Repr

/-- Put consumed characters in front of a body. -/
def Body.push (cs : List Char) (b : Body) : Body := { b with text := cs ++ b.text }

/-- Inside `'...'`: a backslash takes the next character with it, `''` is an
escaped quote. -/
def stringBody : List Char → Body
  | [] => ⟨[], [], false⟩
  | ['\\'] => ⟨['\\'], [], false⟩
  | '\\' :: c :: rest => (stringBody rest).push ['\\', c]
  | '\'' :: '\'' :: rest => (stringBody rest).push ['\'', '\'']
  | '\'' :: rest => ⟨['\''], rest, true⟩
  | c :: rest => (stringBody rest).push [c]

/-- Inside `"..."`: only `""` is an escape. -/
def identifierBody : List Char → Body
  | [] => ⟨[], [], false⟩
  | '"' :: '"' :: rest => (identifierBody rest).push ['"', '"']
  | '"' :: rest => ⟨['"'], rest, true⟩
  | c :: rest => (identifierBody rest).push [c]

/-- Inside `$$...$$`: up to and including the first `$$`. -/
def dollarBody : List Char → Body
  | [] => ⟨[], [], false⟩
  | '$' :: '$' :: rest => ⟨['$', '$'], rest, true⟩
  | c :: rest => (dollarBody rest).push [c]

/-- Inside `/*...*/`: up to and including the first `*/`. -/
def blockBody : List Char → Body
  | [] => ⟨[], [], false⟩
  | '*' :: '/' :: rest => ⟨['*', '/'], rest, true⟩
  | c :: rest => (blockBody rest).push [c]

/-- Whether a `/*` is seen before the block comment closes. -/
def blockNested : List Char → Bool
  | [] => false
  | '*' :: '/' :: _ => false
  | c :: rest => (c == '/' && rest.head? == some '*') || blockNested rest

/-- Split at the end of the line; the newline stays in the rest. -/
def lineEnd (s : List Char) : List Char × List Char :=
  (s.takeWhile (· ≠ '\n'), s.dropWhile (· ≠ '\n'))

/-- A token made of the first characters that satisfy `p`. -/
def runOf (kind : SqlTokenKind) (p : Char → Bool) (s : List Char) : Scanned :=
  { kind, text := s.takeWhile p, rest := s.dropWhile p }

/-- One arm of the lexer's `match`, at the first character `c` of what is left. -/
def scanToken (c : Char) (rest : List Char) : Scanned :=
  let next := rest.head?
  if isAsciiWhitespace c then runOf .whitespace isAsciiWhitespace (c :: rest)
  else if (c = '-' && next = some '-') || (c = '/' && next = some '/') then
    { kind := .comment, text := (lineEnd (c :: rest)).1, rest := (lineEnd (c :: rest)).2 }
  else if c = '/' && next = some '*' then
    let b := blockBody rest.tail
    { kind := .comment, text := '/' :: '*' :: b.text, rest := b.rest,
      unterminated := !b.closed, ambiguous := blockNested rest.tail }
  else if c = '\'' then
    let b := stringBody rest
    { kind := .stringLiteral, text := c :: b.text, rest := b.rest, unterminated := !b.closed }
  else if c = '"' then
    let b := identifierBody rest
    { kind := .quotedIdentifier, text := c :: b.text, rest := b.rest, unterminated := !b.closed }
  else if c = '$' && next = some '$' then
    let b := dollarBody rest.tail
    { kind := .dollarString, text := '$' :: '$' :: b.text, rest := b.rest,
      unterminated := !b.closed }
  else if c = '$' && next.any (fun n ↦ n.isAlphanum || n = '_') then
    { kind := .var, text := c :: rest.takeWhile isIdentifierByte,
      rest := rest.dropWhile isIdentifierByte }
  else if c = ';' then { kind := .semicolon, text := [c], rest }
  else if c.isAlpha || c = '_' then runOf .word isIdentifierByte (c :: rest)
  else if c.isDigit then runOf .number (fun d ↦ d.isAlphanum || d = '.') (c :: rest)
  else { kind := .symbol, text := [c], rest }

/-- The number of bytes a text takes in UTF-8. -/
def utf8Len (s : List Char) : Nat := (s.map Char.utf8Size).sum

/-- The lexer's outer loop, at byte `start` with `rest` still unread.  Every
token takes at least one character, so the length of the text is fuel enough. -/
def lexFrom : Nat → Nat → List Char → SqlLex
  | 0, _, _ | _, _, [] => ⟨[], false, false⟩
  | fuel + 1, start, c :: rest =>
      let s := scanToken c rest
      let tail := lexFrom fuel (start + utf8Len s.text) s.rest
      { tokens := ⟨s.kind, s.text, start⟩ :: tail.tokens
        unterminated := s.unterminated || tail.unterminated
        ambiguous := s.ambiguous || tail.ambiguous }

/-- Lex `sql` into tokens. -/
def lex (sql : List Char) : SqlLex := lexFrom sql.length 0 sql

namespace SqlLex

/-- Guards must refuse rather than trust the token stream. -/
def isUnreliable (l : SqlLex) : Bool := l.unterminated || l.ambiguous

/-- Non-trivia tokens in order. -/
def significant (l : SqlLex) : List SqlToken := l.tokens.filter fun t ↦ !t.isTrivia

/-- The loop of `statementCount`: `content` is `segment_has_content`. -/
def countSegments : Bool → List SqlToken → Nat
  | content, [] => content.toNat
  | content, t :: ts =>
      if t.kind = .semicolon then content.toNat + countSegments false ts
      else countSegments true ts

/-- Number of top-level `;`-separated segments with a significant token. -/
def statementCount (l : SqlLex) : Nat := countSegments false l.significant

/-- Lower-cased executable words, in order. -/
def words (l : SqlLex) : List (List Char) := l.tokens.filterMap SqlToken.word?

end SqlLex

/-! ## Progress

Each arm takes the first character at least, so what it leaves is no longer
than what followed that character. -/

theorem length_rest_stringBody (s : List Char) : (stringBody s).rest.length ≤ s.length := by
  fun_induction stringBody s <;> simp only [Body.push, List.length_cons, List.length_nil] <;> omega

theorem length_rest_identifierBody (s : List Char) :
    (identifierBody s).rest.length ≤ s.length := by
  fun_induction identifierBody s <;> simp only [Body.push, List.length_cons, List.length_nil] <;> omega

theorem length_rest_dollarBody (s : List Char) : (dollarBody s).rest.length ≤ s.length := by
  fun_induction dollarBody s <;> simp only [Body.push, List.length_cons, List.length_nil] <;> omega

theorem length_rest_blockBody (s : List Char) : (blockBody s).rest.length ≤ s.length := by
  fun_induction blockBody s <;> simp only [Body.push, List.length_cons, List.length_nil] <;> omega

theorem length_dropWhile_le (p : Char → Bool) (s : List Char) :
    (s.dropWhile p).length ≤ s.length := (List.dropWhile_sublist p).length_le

theorem length_rest_ite {n : Nat} {p : Prop} {_ : Decidable p} {t e : Scanned}
    (ht : p → t.rest.length ≤ n) (he : ¬p → e.rest.length ≤ n) :
    (if p then t else e).rest.length ≤ n :=
  iteInduction (motive := fun s : Scanned ↦ s.rest.length ≤ n) ht he

theorem length_rest_scanToken (c : Char) (rest : List Char) :
    (scanToken c rest).rest.length ≤ rest.length := by
  have hrun : ∀ p : Char → Bool, p c → ((c :: rest).dropWhile p).length ≤ rest.length := by
    intro p hp
    simpa [hp] using length_dropWhile_le p rest
  have htail : rest.tail.length ≤ rest.length := by simp
  have hword : (c.isAlpha || c = '_') → isIdentifierByte c := by
    intro h
    rcases (by simpa using h : c.isAlpha ∨ c = '_') with h | rfl
    · simp [isIdentifierByte, Char.isAlphanum, h]
    · decide
  unfold scanToken
  refine length_rest_ite (fun h ↦ hrun _ h) fun _ ↦ ?_
  refine length_rest_ite (fun h ↦ hrun (· ≠ '\n') ?_) fun _ ↦ ?_
  · simp only [Bool.or_eq_true, Bool.and_eq_true, decide_eq_true_eq] at h
    rcases h with ⟨rfl, -⟩ | ⟨rfl, -⟩ <;> decide
  refine length_rest_ite (fun _ ↦ Nat.le_trans (length_rest_blockBody _) htail) fun _ ↦ ?_
  refine length_rest_ite (fun _ ↦ length_rest_stringBody rest) fun _ ↦ ?_
  refine length_rest_ite (fun _ ↦ length_rest_identifierBody rest) fun _ ↦ ?_
  refine length_rest_ite (fun _ ↦ Nat.le_trans (length_rest_dollarBody _) htail) fun _ ↦ ?_
  refine length_rest_ite (fun _ ↦ length_dropWhile_le _ rest) fun _ ↦ ?_
  refine length_rest_ite (fun _ ↦ Nat.le_refl _) fun _ ↦ ?_
  refine length_rest_ite (fun h ↦ hrun _ (hword h)) fun _ ↦ ?_
  refine length_rest_ite (fun h ↦ hrun (fun d ↦ d.isAlphanum || d = '.') ?_) fun _ ↦ Nat.le_refl _
  simp [Char.isAlphanum, h]

/-- Fuel beyond the length of the text changes nothing. -/
theorem lexFrom_fuel {fuel fuel' : Nat} (start : Nat) {s : List Char} (h : s.length ≤ fuel)
    (h' : s.length ≤ fuel') : lexFrom fuel start s = lexFrom fuel' start s := by
  induction fuel generalizing fuel' start s with
  | zero =>
      obtain rfl : s = [] := List.length_eq_zero_iff.mp (by omega)
      cases fuel' <;> rfl
  | succ fuel ih =>
      cases s with
      | nil => cases fuel' <;> rfl
      | cons c rest =>
          obtain ⟨fuel', rfl⟩ : ∃ k, fuel' = k + 1 := ⟨fuel' - 1, by simp at h'; omega⟩
          have hrest := length_rest_scanToken c rest
          simp only [List.length_cons] at h h'
          have htail : ∀ start, lexFrom fuel start (scanToken c rest).rest =
              lexFrom fuel' start (scanToken c rest).rest :=
            fun start ↦ ih start (by omega) (by omega)
          simp only [lexFrom, htail]

/-! ## What a guard reads of a token

Guards compare kinds and texts; only `split_statements` reads offsets. -/

/-- The kind and text of a token. -/
def SqlToken.content (t : SqlToken) : SqlTokenKind × List Char := (t.kind, t.text)

/-- The significant tokens of a text, as guards compare them. -/
def significantContent (sql : List Char) : List (SqlTokenKind × List Char) :=
  (lex sql).significant.map SqlToken.content

/-- Where lexing starts shifts the offsets and nothing else. -/
theorem lexFrom_start (fuel start : Nat) (s : List Char) :
    (lexFrom fuel start s).tokens =
        (lexFrom fuel 0 s).tokens.map (fun t ↦ { t with start := start + t.start }) ∧
      (lexFrom fuel start s).unterminated = (lexFrom fuel 0 s).unterminated ∧
      (lexFrom fuel start s).ambiguous = (lexFrom fuel 0 s).ambiguous := by
  induction fuel generalizing start s with
  | zero => simp [lexFrom]
  | succ fuel ih =>
      cases s with
      | nil => simp [lexFrom]
      | cons c rest =>
          obtain ⟨ht, hu, ha⟩ := ih (start + utf8Len (scanToken c rest).text) (scanToken c rest).rest
          obtain ⟨ht₀, hu₀, ha₀⟩ := ih (0 + utf8Len (scanToken c rest).text) (scanToken c rest).rest
          simp only [Nat.zero_add] at ht₀ hu₀ ha₀
          simp [lexFrom, ht, hu, ha, ht₀, hu₀, ha₀, Function.comp_def, Nat.add_assoc]

/-- A vertical tab is whitespace to Unicode and a symbol to the lexer. -/
theorem lex_verticalTab (s : List Char) :
    (lex ('\x0b' :: s)).tokens = ⟨.symbol, ['\x0b'], 0⟩ ::
        (lex s).tokens.map (fun t ↦ { t with start := 1 + t.start }) ∧
      (lex ('\x0b' :: s)).isUnreliable = (lex s).isUnreliable := by
  have hscan : scanToken '\x0b' s = { kind := .symbol, text := ['\x0b'], rest := s } := rfl
  have hlen : 0 + utf8Len ['\x0b'] = 1 := by decide
  obtain ⟨ht, hu, ha⟩ := lexFrom_start s.length 1 s
  simp only [lex, SqlLex.isUnreliable, List.length_cons, lexFrom, hscan, hlen, ht, hu, ha,
    Bool.false_or, and_self]

end FrankenSnowflake.SqlLexer
