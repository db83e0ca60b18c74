import FrankenSnowflake.Catalog.SqlText
import FrankenSnowflake.Core.SqlTrivia
import FrankenSnowflake.Foundation.SqlCondition

/-!
# The parts of a plan

The SQL of a plan is made of few kinds of parts: spaces, keywords, marks,
placeholders, identifiers and a literal.  Parts that are no neighbours of their own
kind lex to themselves, whatever stands in the identifiers and the literal.
-/

namespace FrankenSnowflake.Catalog

open Foundation SqlLexer SqlCondition

/-! ## Texts between quotes -/

/-- The text of an identifier token: its inside, two quotes for one. -/
def undouble : Text → Text
  | '"' :: '"' :: s => '"' :: undouble s
  | c :: s => c :: undouble s
  | [] => []

/-- The text of a string token: its inside, two quotes for one, and the character
behind a backslash. -/
def unescape : Text → Text
  | '\'' :: '\'' :: s => '\'' :: unescape s
  | '\\' :: c :: s => c :: unescape s
  | c :: s => c :: unescape s
  | [] => []

/-- The inside of a token between two quotes. -/
def unquoted (text : Text) : Text := text.tail.dropLast

theorem undouble_doubled (x : Text) : undouble (doubled x) = x := by
  induction x with
  | nil => rfl
  | cons c x ih =>
      by_cases hc : c = '"'
      · subst hc
        rw [doubled_quote, undouble, ih]
      · rw [doubled_cons hc, undouble, ih]
        rintro _ rfl
        exact absurd rfl hc

theorem undouble_quoteIdentifier (x : Text) : undouble (unquoted (quoteIdentifier x)) = x := by
  have hinside : unquoted (quoteIdentifier x) = doubled x := List.dropLast_concat
  rw [hinside, undouble_doubled]

theorem escape_backslash (x : Text) :
    escapeSnowflakeLiteral ('\\' :: x) = '\\' :: '\\' :: escapeSnowflakeLiteral x := rfl

theorem escape_quote (x : Text) :
    escapeSnowflakeLiteral ('\'' :: x) = '\'' :: '\'' :: escapeSnowflakeLiteral x := rfl

theorem escape_cons {c : Char} (hescape : c ≠ '\\') (hquote : c ≠ '\'') (x : Text) :
    escapeSnowflakeLiteral (c :: x) = c :: escapeSnowflakeLiteral x := by
  rw [escapeSnowflakeLiteral, List.flatMap_cons, if_neg hescape, if_neg hquote]
  rfl

theorem unescape_escape (x : Text) : unescape (escapeSnowflakeLiteral x) = x := by
  induction x with
  | nil => rfl
  | cons c x ih =>
      by_cases hescape : c = '\\'
      · subst hescape
        rw [escape_backslash, unescape, ih]
      · by_cases hquote : c = '\''
        · subst hquote
          rw [escape_quote, unescape, ih]
        · rw [escape_cons hescape hquote, unescape, ih]
          · rintro _ rfl
            exact absurd rfl hquote
          · rintro _ _ rfl
            exact absurd rfl hescape

/-- A string constant. -/
def quoteLiteral (x : Text) : Text := '\'' :: (escapeSnowflakeLiteral x ++ ['\''])

theorem unescape_quoteLiteral (x : Text) : unescape (unquoted (quoteLiteral x)) = x := by
  have hinside : unquoted (quoteLiteral x) = escapeSnowflakeLiteral x := List.dropLast_concat
  rw [hinside, unescape_escape]

/-- The quotes inside an identifier do not end it. -/
theorem identifierBody_doubled (x : Text) :
    identifierBody (doubled x ++ ['"']) = ⟨doubled x ++ ['"'], [], true⟩ := by
  induction x with
  | nil => rfl
  | cons c x ih =>
      by_cases hc : c = '"'
      · subst hc
        rw [doubled_quote, List.cons_append, List.cons_append, identifierBody, ih]
        rfl
      · rw [doubled_cons hc, List.cons_append, identifierBody_cons hc, ih]
        rfl

/-- The quotes and the backslashes inside a literal do not end it. -/
theorem stringBody_escape' (x : Text) :
    stringBody (escapeSnowflakeLiteral x ++ ['\'']) = ⟨escapeSnowflakeLiteral x ++ ['\''], [], true⟩ := by
  induction x with
  | nil => rfl
  | cons c x ih =>
      by_cases hescape : c = '\\'
      · subst hescape
        rw [escape_backslash, List.cons_append, List.cons_append, stringBody, ih]
        rfl
      · by_cases hquote : c = '\''
        · subst hquote
          rw [escape_quote, List.cons_append, List.cons_append, stringBody, ih]
          rfl
        · rw [escape_cons hescape hquote, List.cons_append, stringBody_cons hescape hquote, ih]
          rfl

/-! ## Parts -/

/-- The words of a plan. -/
inductive Keyword where
  | select | «from» | «at» | timestamp | timestampTz | «where» | and | or | not | between
  | «in» | is | null | position | limit
deriving DecidableEq, Repr

def Keyword.text : Keyword → String
  | select => "SELECT"
  | «from» => "FROM"
  | «at» => "AT"
  | timestamp => "TIMESTAMP"
  | timestampTz => "TIMESTAMP_TZ"
  | «where» => "WHERE"
  | and => "AND"
  | or => "OR"
  | not => "NOT"
  | between => "BETWEEN"
  | «in» => "IN"
  | is => "IS"
  | null => "NULL"
  | position => "POSITION"
  | limit => "LIMIT"

/-- A keyword in lower case, as guards compare it. -/
def Keyword.lower : Keyword → String
  | select => "select"
  | «from» => "from"
  | «at» => "at"
  | timestamp => "timestamp"
  | timestampTz => "timestamp_tz"
  | «where» => "where"
  | and => "and"
  | or => "or"
  | not => "not"
  | between => "between"
  | «in» => "in"
  | is => "is"
  | null => "null"
  | position => "position"
  | limit => "limit"

theorem Keyword.map_toLower (w : Keyword) : w.text.toList.map Char.toLower = w.lower.toList := by
  cases w <;> decide

/-- The marks of a plan. -/
inductive Mark where
  | «open» | close | comma | dot | equals | less | greater | bang | colon
deriving DecidableEq, Repr

def Mark.char : Mark → Char
  | «open» => '('
  | close => ')'
  | comma => ','
  | dot => '.'
  | equals => '='
  | less => '<'
  | greater => '>'
  | bang => '!'
  | colon => ':'

inductive SqlPart where
  | blank
  /-- Two spaces, around a list without elements. -/
  | gap
  | keyword (w : Keyword)
  | mark (m : Mark)
  | placeholder
  | zero
  | identifier (x : Text)
  | literal (x : Text)
deriving DecidableEq, Repr

namespace SqlPart

def lexeme : SqlPart → Lexeme
  | blank => ⟨.whitespace, [' '], false, false⟩
  | gap => ⟨.whitespace, [' ', ' '], false, false⟩
  | keyword w => ⟨.word, w.text.toList, false, false⟩
  | mark m => ⟨.symbol, [m.char], false, false⟩
  | placeholder => ⟨.symbol, ['?'], false, false⟩
  | zero => ⟨.number, ['0'], false, false⟩
  | identifier x => ⟨.quotedIdentifier, quoteIdentifier x, false, false⟩
  | literal x => ⟨.stringLiteral, quoteLiteral x, false, false⟩

theorem stands_of_scan {c : Char} {rest : Text} {l : Lexeme}
    (h : (scanToken c rest).lexeme = l) : l.Stands := h ▸ (arm_scanToken c rest).stands

theorem stands (p : SqlPart) : p.lexeme.Stands := by
  cases p with
  | blank => exact stands_blank
  | gap => exact @stands_of_scan ' ' [' '] _ rfl
  | keyword w =>
      refine @stands_of_scan (w.text.toList.headD ' ') w.text.toList.tail _ ?_
      cases w <;> decide
  | mark m =>
      refine @stands_of_scan m.char [] _ ?_
      cases m <;> rfl
  | placeholder => exact @stands_of_scan '?' [] _ rfl
  | zero => exact @stands_of_scan '0' [] _ rfl
  | identifier x =>
      have harm : Arm '"' (doubled x ++ ['"']) _ := .identifier rfl
      rw [identifierBody_doubled] at harm
      exact ⟨'"', _, rfl, harm⟩
  | literal x =>
      have harm : Arm '\'' (escapeSnowflakeLiteral x ++ ['\'']) _ := .string rfl
      rw [stringBody_escape'] at harm
      exact ⟨'\'', _, rfl, harm⟩

/-- The second of two parts does not go on with the first. -/
def Linked (p q : SqlPart) : Prop := goesOn p.lexeme.kind p.lexeme.text (q.lexeme.text.headD ' ') = false

instance (p q : SqlPart) : Decidable (Linked p q) := inferInstanceAs (Decidable (_ = _))

theorem Linked.adjacent {p q : SqlPart} (h : Linked p q) : Adjacent p.lexeme q.lexeme := by
  refine ⟨by cases p <;> rfl, fun d hd ↦ ?_⟩
  have hhead : q.lexeme.text.headD ' ' = d := by rw [List.headD_eq_head?_getD, hd]; rfl
  rw [← hhead]
  exact h

def isSpace : SqlPart → Bool
  | blank | gap => true
  | _ => false

theorem linked_blank {p : SqlPart} (h : p.isSpace = false) : Linked p blank := by
  cases p with
  | blank | gap => cases h
  | keyword | placeholder | zero | identifier | literal => rfl
  | mark m => cases m <;> rfl

theorem linked_gap {p : SqlPart} (h : p.isSpace = false) : Linked p gap := linked_blank h

theorem blank_linked {p : SqlPart} (h : p.isSpace = false) : Linked blank p := by
  cases p with
  | blank | gap => cases h
  | placeholder | zero | identifier | literal => rfl
  | keyword w => cases w <;> rfl
  | mark m => cases m <;> rfl

theorem mark_linked (m : Mark) (p : SqlPart) : Linked (mark m) p := by
  cases m <;> simp [Linked, goesOn, lexeme, Mark.char]

theorem linked_close (p : SqlPart) : Linked p (mark .close) := by
  cases p with
  | mark m => exact mark_linked m _
  | _ => rfl

theorem linked_comma (p : SqlPart) : Linked p (mark .comma) := by
  cases p with
  | mark m => exact mark_linked m _
  | _ => rfl

end SqlPart

/-! ## Fragments -/

/-- The text of parts. -/
def partsText (ps : List SqlPart) : Text := textOf (ps.map SqlPart.lexeme)

@[simp] theorem partsText_nil : partsText [] = [] := rfl

@[simp] theorem partsText_cons (p : SqlPart) (ps : List SqlPart) :
    partsText (p :: ps) = p.lexeme.text ++ partsText ps := rfl

@[simp] theorem partsText_append (ps qs : List SqlPart) :
    partsText (ps ++ qs) = partsText ps ++ partsText qs := by
  rw [partsText, List.map_append, textOf_append]
  rfl

/-- Parts between spaces. -/
structure Fragment (ps : List SqlPart) : Prop where
  chain : ps.IsChain SqlPart.Linked
  ne_nil : ps ≠ []
  starts : ∀ p ∈ ps.head?, p.isSpace = false
  stops : ∀ p ∈ ps.getLast?, p.isSpace = false

def chained : List SqlPart → Bool
  | p :: q :: ps => decide (SqlPart.Linked p q) && chained (q :: ps)
  | _ => true

theorem isChain_of_chained {ps : List SqlPart} (h : chained ps) : ps.IsChain SqlPart.Linked := by
  fun_induction chained ps with
  | case1 p q ps ih =>
      rw [Bool.and_eq_true, decide_eq_true_eq] at h
      exact .cons_cons h.1 (ih h.2)
  | case2 ps hshort =>
      match ps with
      | [] => exact .nil
      | [p] => exact .singleton p
      | p :: q :: ps => exact (hshort p q ps rfl).elim

/-- Whether parts are a fragment. -/
def isFragment (ps : List SqlPart) : Bool :=
  chained ps && ps.head?.any (!·.isSpace) && ps.getLast?.any (!·.isSpace)

theorem fragment_of_isFragment {ps : List SqlPart} (h : isFragment ps) : Fragment ps := by
  rw [isFragment, Bool.and_eq_true, Bool.and_eq_true, Option.any_eq_true, Option.any_eq_true] at h
  obtain ⟨⟨hchain, p, hp, hstarts⟩, q, hq, hstops⟩ := h
  refine ⟨isChain_of_chained hchain, ?_, fun r hr ↦ ?_, fun r hr ↦ ?_⟩
  · rintro rfl
    cases hp
  · obtain rfl := Option.mem_unique hp hr
    rwa [Bool.not_eq_true'] at hstarts
  · obtain rfl := Option.mem_unique hq hr
    rwa [Bool.not_eq_true'] at hstops

theorem sound_of_chain {ps : List SqlPart} (h : ps.IsChain SqlPart.Linked) :
    Sound (ps.map SqlPart.lexeme) where
  stands := List.forall_mem_map.mpr fun p _ ↦ p.stands
  chain := (List.isChain_map _).mpr (h.imp fun _ _ ↦ SqlPart.Linked.adjacent)
  reliable := List.forall_mem_map.mpr fun p _ ↦ by cases p <;> exact ⟨rfl, rfl⟩

/-- Linked parts lex to themselves. -/
theorem lexemes_partsText {ps : List SqlPart} (h : ps.IsChain SqlPart.Linked) :
    lexemes (partsText ps) = ps.map SqlPart.lexeme :=
  lexemes_textOf (sound_of_chain h).stands (sound_of_chain h).chain

/-- What may stand between fragments. -/
structure Bridge (sep : List SqlPart) : Prop where
  chain : sep.IsChain SqlPart.Linked
  ne_nil : sep ≠ []
  behind : ∀ p : SqlPart, p.isSpace = false → ∀ q ∈ sep.head?, SqlPart.Linked p q
  before : ∀ p : SqlPart, p.isSpace = false → ∀ q ∈ sep.getLast?, SqlPart.Linked q p

/-- A keyword between spaces. -/
def spacedWord (w : Keyword) : List SqlPart := [.blank, .keyword w, .blank]

def commaSpace : List SqlPart := [.mark .comma, .blank]

theorem bridge_spacedWord (w : Keyword) : Bridge (spacedWord w) where
  chain := .cons_cons (SqlPart.blank_linked rfl)
    (.cons_cons (SqlPart.linked_blank rfl) (.singleton _))
  ne_nil := List.cons_ne_nil _ _
  behind _ hp _ hq := Option.some.inj hq ▸ SqlPart.linked_blank hp
  before _ hp _ hq := Option.some.inj hq ▸ SqlPart.blank_linked hp

theorem bridge_commaSpace : Bridge commaSpace where
  chain := .cons_cons (SqlPart.linked_blank rfl) (.singleton _)
  ne_nil := List.cons_ne_nil _ _
  behind p _ _ hq := Option.some.inj hq ▸ SqlPart.linked_comma p
  before _ hp _ hq := Option.some.inj hq ▸ SqlPart.blank_linked hp

namespace Fragment

variable {ps qs sep : List SqlPart}

theorem singleton {p : SqlPart} (h : p.isSpace = false) : Fragment [p] where
  chain := .singleton p
  ne_nil := List.cons_ne_nil _ _
  starts _ hq := Option.some.inj hq ▸ h
  stops _ hq := Option.some.inj hq ▸ h

theorem append (h : Fragment ps) (hsep : Bridge sep) (h' : Fragment qs) :
    Fragment (ps ++ (sep ++ qs)) where
  chain := by
    refine List.isChain_append.mpr ⟨h.chain, ?_, fun p hp q hq ↦ ?_⟩
    · refine List.isChain_append.mpr ⟨hsep.chain, h'.chain, fun p hp q hq ↦ ?_⟩
      exact hsep.before q (h'.starts q hq) p hp
    · rw [List.head?_append_of_ne_nil _ hsep.ne_nil] at hq
      exact hsep.behind p (h.stops p hp) q hq
  ne_nil := List.append_ne_nil_of_left_ne_nil h.ne_nil _
  starts p hp := by
    rw [List.head?_append_of_ne_nil _ h.ne_nil] at hp
    exact h.starts p hp
  stops p hp := by
    rw [← List.append_assoc, List.getLast?_append_of_ne_nil _ h'.ne_nil] at hp
    exact h'.stops p hp

theorem intercalate (hsep : Bridge sep) {pss : List (List SqlPart)} (hne : pss ≠ [])
    (h : ∀ ps ∈ pss, Fragment ps) : Fragment (sep.intercalate pss) := by
  induction pss with
  | nil => exact absurd rfl hne
  | cons ps pss ih =>
      obtain ⟨hps, hrest⟩ := List.forall_mem_cons.mp h
      cases pss with
      | nil =>
          rw [List.intercalate_singleton]
          exact hps
      | cons qs pss =>
          rw [List.intercalate_cons_cons, List.append_assoc]
          exact hps.append hsep (ih (List.cons_ne_nil _ _) hrest)

theorem paren (h : Fragment ps) : Fragment (.mark .open :: (ps ++ [.mark .close])) where
  chain := by
    refine List.isChain_cons.mpr ⟨fun q _ ↦ SqlPart.mark_linked _ q, ?_⟩
    refine List.isChain_append.mpr ⟨h.chain, .singleton _, fun p _ q hq ↦ ?_⟩
    exact Option.some.inj hq ▸ SqlPart.linked_close p
  ne_nil := List.cons_ne_nil _ _
  starts _ hq := Option.some.inj hq ▸ rfl
  stops p hp := by
    rw [← List.cons_append, List.getLast?_concat] at hp
    exact Option.some.inj hp ▸ rfl

end Fragment

/-! ## Tokens -/

/-- The tokens of a condition, whose placeholders are numbered from `k` on. -/
def readTokens : Nat → List (SqlTokenKind × Text) → List Token
  | _, [] => []
  | k, (kind, text) :: ts =>
      match kind with
      | .symbol =>
          if text = ['?'] then .param k :: readTokens (k + 1) ts
          else .symbol (text.headD ' ') :: readTokens k ts
      | .word => .word (text.map Char.toLower) :: readTokens k ts
      | .quotedIdentifier => .column (undouble (unquoted text)) :: readTokens k ts
      | .number => .number text :: readTokens k ts
      | _ => .other text :: readTokens k ts

/-- The tokens of parts. -/
def tokensOf : Nat → List SqlPart → List Token
  | _, [] => []
  | k, .placeholder :: ps => .param k :: tokensOf (k + 1) ps
  | k, .blank :: ps | k, .gap :: ps => tokensOf k ps
  | k, .keyword w :: ps => .kw w.lower :: tokensOf k ps
  | k, .mark m :: ps => .symbol m.char :: tokensOf k ps
  | k, .zero :: ps => .number ['0'] :: tokensOf k ps
  | k, .identifier x :: ps => .column x :: tokensOf k ps
  | k, .literal x :: ps => .other (quoteLiteral x) :: tokensOf k ps

/-- What affects the meaning of parts. -/
def contentOf (ps : List SqlPart) : List (SqlTokenKind × Text) :=
  (significantOf (ps.map SqlPart.lexeme)).map Lexeme.content

theorem readTokens_contentOf (k : Nat) (ps : List SqlPart) :
    readTokens k (contentOf ps) = tokensOf k ps := by
  induction ps generalizing k with
  | nil => rfl
  | cons p ps ih =>
      cases p with
      | blank | gap => exact ih k
      | placeholder => exact congrArg _ (ih (k + 1))
      | zero | literal => exact congrArg _ (ih k)
      | keyword w =>
          show Token.word (w.text.toList.map Char.toLower) :: readTokens k (contentOf ps) = _
          rw [w.map_toLower, ih]
          rfl
      | mark m => cases m <;> exact congrArg _ (ih k)
      | identifier x =>
          show Token.column (undouble (unquoted (quoteIdentifier x))) ::
            readTokens k (contentOf ps) = _
          rw [undouble_quoteIdentifier, ih]
          rfl

/-- The number of placeholders. -/
def placeholders (ps : List SqlPart) : Nat := ps.count .placeholder

theorem placeholders_append (ps qs : List SqlPart) :
    placeholders (ps ++ qs) = placeholders ps + placeholders qs := List.count_append

theorem tokensOf_append (k : Nat) (ps qs : List SqlPart) :
    tokensOf k (ps ++ qs) = tokensOf k ps ++ tokensOf (k + placeholders ps) qs := by
  induction ps generalizing k with
  | nil => rfl
  | cons p ps ih =>
      cases p with
      | placeholder =>
          have hcount : placeholders (.placeholder :: ps) = placeholders ps + 1 :=
            List.count_cons_self
          rw [hcount, Nat.add_comm (placeholders ps) 1, ← Nat.add_assoc]
          exact congrArg _ (ih (k + 1))
      | blank | gap => exact ih k
      | zero | literal | keyword | mark | identifier => exact congrArg _ (ih k)

end FrankenSnowflake.Catalog
