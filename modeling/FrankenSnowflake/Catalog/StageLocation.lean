import FrankenSnowflake.Catalog.Planner

/-!
# Locations of external tables

A location names a stage by its identifiers, or a place under the URL of one.
The identifiers are read from what stands before the first slash.
-/

namespace FrankenSnowflake.Catalog

open Foundation

/-! ## Paths of identifiers -/

/-- Read a quoted identifier after its opening quote: its text and what follows
the closing quote. -/
def readQuoted : Text → Option (Text × Text)
  | [] => none
  | '"' :: '"' :: rest => (readQuoted rest).map fun read ↦ ('"' :: read.1, read.2)
  | '"' :: rest => some ([], rest)
  | c :: rest => (readQuoted rest).map fun read ↦ (c :: read.1, read.2)

/-- Read an unquoted identifier up to the next dot. -/
def readUnquoted (s : Text) : Option (Text × Text) :=
  let part := s.takeWhile (· ≠ '.')
  if '"' ∈ part then none else some (Ascii.upper part, s.dropWhile (· ≠ '.'))

def readIdentifier : Text → Option (Text × Text)
  | '"' :: rest => readQuoted rest
  | s => readUnquoted s

/-- Split with `fuel` identifiers to go at most. -/
def splitIdentifiers : Nat → Text → Option (List Text)
  | 0, _ => none
  | fuel + 1, s =>
      match readIdentifier s with
      | none | some ([], _) => none
      | some (part, []) => some [part]
      | some (part, '.' :: rest) => (splitIdentifiers fuel rest).map (part :: ·)
      | some (_, _ :: _) => none

/-- Split `a."b.c".d`; every identifier but the last takes a dot. -/
def splitIdentifierPath (path : Text) : Option (List Text) :=
  splitIdentifiers (path.length + 1) (Unicode.trim path)

/-- Resolve `[db.][schema.]name` against a default database and schema. -/
def parseObjectPath (path database schema : Text) : Option ObjectRef :=
  match splitIdentifierPath path with
  | some [name] => some ⟨database, schema, name⟩
  | some [inSchema, name] => some ⟨database, inSchema, name⟩
  | some [inDatabase, inSchema, name] => some ⟨inDatabase, inSchema, name⟩
  | some [] | some (_ :: _ :: _ :: _ :: _) | none => none

/-! ## Stages -/

/-- `str::trim_end_matches('/')`. -/
def trimSlashes (url : Text) : Text := url.rdropWhile (· = '/')

/-- Whether a location is a URL or stands under it on a path boundary. -/
def isUnder (location url : Text) : Bool :=
  url ≠ [] && (location = url || url ++ ['/'] <+: location)

/-- The stage of the longest URL, the last one of its length; the length in
bytes comes with each stage. -/
def longest (candidates : List (Nat × ObjectRef)) : Option (Nat × ObjectRef) :=
  candidates.foldl (fun best candidate ↦
    match best with
    | none => some candidate
    | some best => if best.1 ≤ candidate.1 then some candidate else some best) none

def stageForLocation (location : Text) (object : ObjectRef) (stages : List StageEntry) :
    Option ObjectRef :=
  match Unicode.trim location with
  | '@' :: reference =>
      let path := reference.takeWhile (· ≠ '/')
      if path.head? = some '~' ∨ path.head? = some '%' then none
      else parseObjectPath path object.database object.schema
  | location =>
      (longest (stages.filterMap fun stage ↦
        stage.url.bind fun url ↦
          let url := trimSlashes url
          if isUnder location url then some ((Utf8.encode url).length, stage.stage)
          else none)).map Prod.snd

/-! ## Spelled identifiers -/

def isUnquotedChar (c : Char) : Bool := c.isAlphanum || c = '_' || c = '$'

/-- An identifier as it is spelled in a location. -/
structure IdentifierPart where
  quoted : Bool
  text : Text
  ne_nil : text ≠ []
  unquoted : quoted = false → ∀ c ∈ text, isUnquotedChar c

namespace IdentifierPart

variable (part : IdentifierPart)

def spelled : Text := if part.quoted then quoteIdentifier part.text else part.text

/-- The identifier itself. -/
def name : Text := if part.quoted then part.text else Ascii.upper part.text

end IdentifierPart

/-- A character of a quoted identifier. -/
def doubledQuote (c : Char) : Text := if c = '"' then ['"', '"'] else [c]

theorem quoteIdentifier_eq (identifier : Text) :
    quoteIdentifier identifier = '"' :: (identifier.flatMap doubledQuote ++ ['"']) := rfl

theorem readQuoted_doubled (content rest : Text) (hrest : rest.head? ≠ some '"') :
    readQuoted (content.flatMap doubledQuote ++ '"' :: rest) = some (content, rest) := by
  induction content with
  | nil =>
      cases rest with
      | nil => rfl
      | cons c rest =>
          have hc : c ≠ '"' := fun hc ↦ hrest (by rw [hc, List.head?_cons])
          simp [readQuoted, hc]
  | cons c content ih =>
      rw [List.flatMap_cons, List.append_assoc]
      by_cases hc : c = '"'
      · subst hc
        simp only [doubledQuote, if_pos, List.cons_append, List.nil_append, readQuoted]
        rw [ih, Option.map_some]
      · simp [doubledQuote, hc, readQuoted, ih]

/-- A quoted identifier takes an odd number of quotes after the opening one. -/
theorem count_of_readQuoted {s part rest : Text} (h : readQuoted s = some (part, rest)) :
    (s.count '"' + rest.count '"') % 2 = 1 := by
  induction s using readQuoted.induct generalizing part with
  | case1 => cases h
  | case2 s ih =>
      rw [readQuoted, Option.map_eq_some_iff] at h
      obtain ⟨⟨part', rest'⟩, hread, h⟩ := h
      cases h
      have hcount := ih hread
      rw [List.count_cons_self, List.count_cons_self]
      omega
  | case3 s hs =>
      rw [readQuoted] at h
      · cases h
        rw [List.count_cons_self]
        omega
      · exact hs
  | case4 c s hc hc' ih =>
      rw [readQuoted] at h
      · obtain ⟨⟨part', rest'⟩, hread, h⟩ := Option.map_eq_some_iff.mp h
        cases h
        rw [List.count_cons_of_ne hc']
        exact ih hread
      · exact hc
      · exact hc'

theorem count_of_readUnquoted {s part rest : Text} (h : readUnquoted s = some (part, rest)) :
    s.count '"' = rest.count '"' := by
  simp only [readUnquoted] at h
  split_ifs at h with hquote
  cases h
  have hsplit := congrArg (List.count '"') (List.takeWhile_append_dropWhile (p := (· ≠ '.')) (l := s))
  rw [List.count_append, List.count_eq_zero_of_not_mem hquote] at hsplit
  omega

theorem count_of_readIdentifier {s part rest : Text} (h : readIdentifier s = some (part, rest)) :
    (s.count '"' + rest.count '"') % 2 = 0 := by
  unfold readIdentifier at h
  split at h
  next s =>
    have hcount := count_of_readQuoted h
    rw [List.count_cons_self]
    omega
  next =>
    have hcount := count_of_readUnquoted h
    omega

/-- A path of identifiers has an even number of quotes. -/
theorem count_of_splitIdentifiers {fuel : Nat} {s : Text} {parts : List Text}
    (h : splitIdentifiers fuel s = some parts) : s.count '"' % 2 = 0 := by
  induction fuel generalizing s parts with
  | zero => cases h
  | succ fuel ih =>
      unfold splitIdentifiers at h
      split at h
      next => cases h
      next => cases h
      next part _ hread =>
        have hcount := count_of_readIdentifier hread
        rw [List.count_nil] at hcount
        omega
      next part rest _ hread =>
        obtain ⟨parts', hparts, -⟩ := Option.map_eq_some_iff.mp h
        have hcount := count_of_readIdentifier hread
        have hrest := ih hparts
        rw [List.count_cons_of_ne (by decide)] at hcount
        omega
      next => cases h

theorem length_of_readQuoted {s part rest : Text} (h : readQuoted s = some (part, rest)) :
    rest.length ≤ s.length := by
  induction s using readQuoted.induct generalizing part with
  | case1 => cases h
  | case2 s ih =>
      rw [readQuoted, Option.map_eq_some_iff] at h
      obtain ⟨⟨part', rest'⟩, hread, h⟩ := h
      cases h
      refine (ih hread).trans ?_
      simp only [List.length_cons]
      omega
  | case3 s hs =>
      rw [readQuoted] at h
      · cases h
        simp
      · exact hs
  | case4 c s hc hc' ih =>
      rw [readQuoted] at h
      · obtain ⟨⟨part', rest'⟩, hread, h⟩ := Option.map_eq_some_iff.mp h
        cases h
        exact (ih hread).trans (by simp)
      · exact hc
      · exact hc'

theorem length_of_readIdentifier {s part rest : Text} (h : readIdentifier s = some (part, rest)) :
    rest.length ≤ s.length := by
  unfold readIdentifier at h
  split at h
  next s => exact (length_of_readQuoted h).trans (by simp)
  next =>
    simp only [readUnquoted] at h
    split_ifs at h
    cases h
    exact (List.dropWhile_sublist _).length_le

/-- More fuel than there are characters makes no difference. -/
theorem splitIdentifiers_fuel {fuel fuel' : Nat} {s : Text} (h : s.length < fuel)
    (h' : s.length < fuel') : splitIdentifiers fuel s = splitIdentifiers fuel' s := by
  induction fuel generalizing fuel' s with
  | zero => omega
  | succ fuel ih =>
      obtain ⟨fuel', rfl⟩ : ∃ n, fuel' = n + 1 := ⟨fuel' - 1, by omega⟩
      unfold splitIdentifiers
      cases hread : readIdentifier s with
      | none => rfl
      | some read =>
          obtain ⟨part, rest⟩ := read
          have hlength := length_of_readIdentifier hread
          cases part with
          | nil => rfl
          | cons c part =>
              cases rest with
              | nil => rfl
              | cons d rest =>
                  by_cases hd : d = '.'
                  · subst hd
                    rw [List.length_cons] at hlength
                    have hrest : splitIdentifiers fuel rest = splitIdentifiers fuel' rest :=
                      ih (by omega) (by omega)
                    simp only [hrest]
                  · simp

/-- Split a whole text. -/
def splitPath (s : Text) : Option (List Text) := splitIdentifiers (s.length + 1) s

theorem splitIdentifierPath_eq (path : Text) :
    splitIdentifierPath path = splitPath (Unicode.trim path) :=
  splitIdentifiers_fuel (Nat.lt_succ_of_le (Unicode.length_trim_le path)) (Nat.lt_succ_self _)

theorem splitPath_of_read_none {s : Text} (h : readIdentifier s = none) : splitPath s = none := by
  rw [splitPath, splitIdentifiers, h]

theorem splitPath_of_read_end {s part : Text} (h : readIdentifier s = some (part, []))
    (hpart : part ≠ []) : splitPath s = some [part] := by
  obtain ⟨c, part, rfl⟩ := List.exists_cons_of_ne_nil hpart
  rw [splitPath, splitIdentifiers, h]

theorem splitPath_of_read_dot {s part rest : Text}
    (h : readIdentifier s = some (part, '.' :: rest)) (hpart : part ≠ []) :
    splitPath s = (splitPath rest).map (part :: ·) := by
  have hlength := length_of_readIdentifier h
  obtain ⟨c, part, rfl⟩ := List.exists_cons_of_ne_nil hpart
  rw [splitPath, splitIdentifiers, h]
  simp only
  rw [List.length_cons] at hlength
  rw [splitIdentifiers_fuel hlength (Nat.lt_succ_self _)]
  rfl

namespace IdentifierPart

variable (part : IdentifierPart)

theorem name_ne_nil : part.name ≠ [] := by
  unfold name
  split_ifs
  · exact part.ne_nil
  · simpa [Ascii.upper] using part.ne_nil

/-- The next identifier of a path is read up to its dot or the end. -/
theorem readIdentifier_spelled {rest : Text} (hrest : ∀ c ∈ rest.head?, c = '.') :
    readIdentifier (part.spelled ++ rest) = some (part.name, rest) := by
  unfold spelled name
  split_ifs with hquoted
  · have hquote : rest.head? ≠ some '"' := fun h ↦ absurd (hrest '"' h) (by decide)
    have hread := readQuoted_doubled part.text rest hquote
    rw [quoteIdentifier_eq, List.cons_append, readIdentifier, List.append_assoc]
    exact hread
  · have hchars := part.unquoted (Bool.eq_false_iff.mpr hquoted)
    have hquote : '"' ∉ part.text := fun h ↦ absurd (hchars '"' h) (by decide)
    have hdot (c : Char) (hc : c ∈ part.text) : c ≠ '.' := by
      rintro rfl
      exact absurd (hchars '.' hc) (by decide)
    have hunquoted : readIdentifier (part.text ++ rest) = readUnquoted (part.text ++ rest) := by
      obtain ⟨c, text, htext⟩ := List.exists_cons_of_ne_nil part.ne_nil
      have hc : c ≠ '"' := by
        rintro rfl
        exact hquote (htext ▸ List.mem_cons_self)
      rw [htext, List.cons_append, readIdentifier]
      intro s hs
      exact hc (List.cons.inj hs).1
    have htake : (part.text ++ rest).takeWhile (· ≠ '.') = part.text := by
      rw [List.takeWhile_append_of_pos (by simpa using hdot)]
      cases rest with
      | nil => simp
      | cons c rest => simp [hrest c rfl]
    have hdrop : (part.text ++ rest).dropWhile (· ≠ '.') = rest := by
      rw [List.dropWhile_append_of_pos (by simpa using hdot)]
      cases rest with
      | nil => simp
      | cons c rest => simp [hrest c rfl]
    rw [hunquoted]
    simp only [readUnquoted, htake, hdrop, if_neg hquote]

theorem splitPath_spelled : splitPath part.spelled = some [part.name] := by
  have hread : readIdentifier (part.spelled ++ []) = some (part.name, []) :=
    part.readIdentifier_spelled (by simp)
  rw [List.append_nil] at hread
  exact splitPath_of_read_end hread part.name_ne_nil

theorem splitPath_spelled_dot (rest : Text) :
    splitPath (part.spelled ++ '.' :: rest) = (splitPath rest).map (part.name :: ·) :=
  splitPath_of_read_dot (part.readIdentifier_spelled (by simp)) part.name_ne_nil

end IdentifierPart

/-- A path of identifiers as it is spelled. -/
def spellPath : List IdentifierPart → Text
  | [] => []
  | [part] => part.spelled
  | part :: next :: parts => part.spelled ++ '.' :: spellPath (next :: parts)

theorem splitPath_spellPath {parts : List IdentifierPart} (hparts : parts ≠ []) :
    splitPath (spellPath parts) = some (parts.map IdentifierPart.name) := by
  induction parts with
  | nil => exact absurd rfl hparts
  | cons part parts ih =>
      cases parts with
      | nil => exact part.splitPath_spelled
      | cons next parts =>
          rw [spellPath, part.splitPath_spelled_dot, ih (List.cons_ne_nil _ _)]
          rfl

/-! ## What a slash does -/

theorem count_doubled (content : Text) : (content.flatMap doubledQuote).count '"' % 2 = 0 := by
  induction content with
  | nil => rfl
  | cons c content ih =>
      rw [List.flatMap_cons, List.count_append]
      by_cases hc : c = '"'
      · have htwo : (doubledQuote c).count '"' = 2 := by rw [hc]; decide
        omega
      · have hnone : (doubledQuote c).count '"' = 0 := by simp [doubledQuote, hc]
        omega

theorem slash_mem_doubled {content : Text} : '/' ∈ content.flatMap doubledQuote ↔ '/' ∈ content := by
  rw [List.mem_flatMap]
  constructor
  · rintro ⟨c, hc, hslash⟩
    unfold doubledQuote at hslash
    split_ifs at hslash
    · simp at hslash
    · rw [List.mem_singleton] at hslash
      exact hslash ▸ hc
  · intro h
    exact ⟨'/', h, by decide⟩

namespace IdentifierPart

variable {part : IdentifierPart}

theorem quote_notMem (h : part.quoted = false) : '"' ∉ part.text := fun hmem ↦
  absurd (part.unquoted h '"' hmem) (by decide)

theorem quoted_of_slash (h : '/' ∈ part.text) : part.quoted := by
  by_contra hquoted
  exact absurd (part.unquoted (Bool.eq_false_iff.mpr hquoted) '/' h) (by decide)

theorem spelled_of_quoted (h : part.quoted) :
    part.spelled = '"' :: (part.text.flatMap doubledQuote ++ ['"']) := if_pos h

theorem spelled_of_unquoted (h : part.quoted = false) : part.spelled = part.text :=
  if_neg (Bool.eq_false_iff.mp h)

theorem slash_notMem_spelled (h : '/' ∉ part.text) : '/' ∉ part.spelled := by
  cases hquoted : part.quoted with
  | true =>
      rw [spelled_of_quoted hquoted, List.mem_cons, List.mem_append, slash_mem_doubled,
        List.mem_singleton]
      rintro (hc | hc | hc)
      · exact absurd hc (by decide)
      · exact h hc
      · exact absurd hc (by decide)
  | false => rwa [spelled_of_unquoted hquoted]

variable (part) in
theorem count_spelled : part.spelled.count '"' % 2 = 0 := by
  cases hquoted : part.quoted with
  | true =>
      have hdoubled := count_doubled part.text
      rw [spelled_of_quoted hquoted, List.count_cons_self, List.count_append,
        List.count_singleton_self]
      omega
  | false =>
      rw [spelled_of_unquoted hquoted, List.count_eq_zero_of_not_mem (quote_notMem hquoted)]

/-- Where a quoted identifier has a slash, the cut before the slash leaves it
unclosed. -/
theorem count_takeWhile_spelled (h : '/' ∈ part.text) (rest : Text) :
    ((part.spelled ++ rest).takeWhile (· ≠ '/')).count '"' % 2 = 1 := by
  obtain ⟨before, after, htext, hbefore⟩ := List.eq_append_cons_of_mem h
  have hspelled : part.spelled ++ rest = ('"' :: before.flatMap doubledQuote) ++
      '/' :: (after.flatMap doubledQuote ++ ['"'] ++ rest) := by
    rw [spelled_of_quoted (quoted_of_slash h), htext, List.flatMap_append, List.flatMap_cons]
    simp [doubledQuote]
  have hfront (c : Char) (hc : c ∈ '"' :: before.flatMap doubledQuote) : decide (c ≠ '/') = true := by
    rw [decide_eq_true_eq]
    rintro rfl
    rcases List.mem_cons.mp hc with hc | hc
    · exact absurd hc (by decide)
    · exact hbefore (slash_mem_doubled.mp hc)
  have hcount := count_doubled before
  rw [hspelled, List.takeWhile_append_of_pos hfront, List.takeWhile_cons_of_neg (by decide),
    List.append_nil, List.count_cons_self]
  omega

end IdentifierPart

/-- Before the first slash of a path with one in an identifier there is an odd
number of quotes. -/
theorem count_takeWhile_spellPath {parts : List IdentifierPart}
    (h : ∃ part ∈ parts, '/' ∈ part.text) :
    ((spellPath parts).takeWhile (· ≠ '/')).count '"' % 2 = 1 := by
  induction parts with
  | nil => simp at h
  | cons part parts ih =>
      by_cases hslash : '/' ∈ part.text
      · cases parts with
        | nil => simpa [spellPath] using IdentifierPart.count_takeWhile_spelled hslash []
        | cons next parts => exact IdentifierPart.count_takeWhile_spelled hslash _
      · obtain ⟨part', hmem, hpart'⟩ := h
        have hrest : part' ∈ parts := by
          rcases List.mem_cons.mp hmem with rfl | hmem
          · exact absurd hpart' hslash
          · exact hmem
        obtain ⟨next, parts, rfl⟩ := List.exists_cons_of_ne_nil (List.ne_nil_of_mem hrest)
        have hfront (c : Char) (hc : c ∈ part.spelled ++ ['.']) : decide (c ≠ '/') = true := by
          rw [decide_eq_true_eq]
          rintro rfl
          rcases List.mem_append.mp hc with hc | hc
          · exact IdentifierPart.slash_notMem_spelled hslash hc
          · exact absurd hc (by decide)
        have hspelled := part.count_spelled
        have hcount := ih ⟨part', hrest, hpart'⟩
        rw [spellPath, List.append_cons, List.takeWhile_append_of_pos hfront, List.count_append,
          List.count_append]
        have hdot : ['.'].count '"' = 0 := by decide
        omega

/-! ## Locations -/

/-- The identifiers of a named stage. -/
inductive StagePath where
  | name (name : IdentifierPart)
  | schemaName (schema name : IdentifierPart)
  | databaseSchemaName (database schema name : IdentifierPart)

namespace StagePath

def parts : StagePath → List IdentifierPart
  | .name n => [n]
  | .schemaName s n => [s, n]
  | .databaseSchemaName d s n => [d, s, n]

/-- The stage that the identifiers name; what is missing is that of the table. -/
def stage (object : ObjectRef) : StagePath → ObjectRef
  | .name n => ⟨object.database, object.schema, n.name⟩
  | .schemaName s n => ⟨object.database, s.name, n.name⟩
  | .databaseSchemaName d s n => ⟨d.name, s.name, n.name⟩

end StagePath

/-- The qualifiers of a table stage. -/
inductive Qualifier where
  | schema (schema : IdentifierPart)
  | databaseSchema (database schema : IdentifierPart)

def Qualifier.parts : Qualifier → List IdentifierPart
  | .schema s => [s]
  | .databaseSchema d s => [d, s]

inductive StageReference where
  | named (path : StagePath)
  | user
  | table (table : IdentifierPart)
  | qualifiedTable (qualifier : Qualifier) (table : IdentifierPart)

/-- What stands between the `@` and the path. -/
def StageReference.spelled : StageReference → Text
  | .named path => spellPath path.parts
  | .user => ['~']
  | .table t => '%' :: t.spelled
  | .qualifiedTable qualifier t => spellPath qualifier.parts ++ '.' :: '%' :: t.spelled

/-- A location: a reference with or without a path, or a URL. -/
inductive StageLocation where
  | reference (reference : StageReference) (path : Option Text)
  | url (text : Text) (h : (Unicode.trim text).head? ≠ some '@')

def StageLocation.text : StageLocation → Text
  | .reference r none => '@' :: r.spelled
  | .reference r (some path) => '@' :: (r.spelled ++ '/' :: path)
  | .url text _ => text

/-- A location falls under a URL on a path boundary. -/
def FallsUnder (location url : Text) : Prop :=
  url ≠ [] ∧ (location = url ∨ ∃ rest, location = url ++ '/' :: rest)

/-- The stages whose URL a location falls under, with the length of the URL. -/
def Covers (location : Text) (stages : List StageEntry) (length : Nat) (stage : ObjectRef) : Prop :=
  ∃ entry ∈ stages, ∃ url, entry.url = some url ∧ FallsUnder location (trimSlashes url) ∧
    (Utf8.encode (trimSlashes url)).length = length ∧ entry.stage = stage

/-- The stage that a location is to be joined to. -/
def Joined (object : ObjectRef) (stages : List StageEntry) (result : Option ObjectRef) :
    StageLocation → Prop
  | .reference (.named path) _ => result = some (path.stage object)
  | .reference .user _ | .reference (.table _) _ | .reference (.qualifiedTable _ _) _ =>
      result = none
  | .url text _ =>
      match result with
      | none => ∀ length stage, ¬ Covers (Unicode.trim text) stages length stage
      | some stage => ∃ length, Covers (Unicode.trim text) stages length stage ∧
          ∀ length' stage', Covers (Unicode.trim text) stages length' stage' → length' ≤ length

/-- No identifier of a named stage has a slash; the table of a qualified table
stage is quoted, or a slash in a qualifier hides it. -/
def Separable : StageLocation → Prop
  | .reference (.named path) _ => ∀ part ∈ path.parts, '/' ∉ part.text
  | .reference (.qualifiedTable qualifier table) _ =>
      table.quoted ∨ ∃ part ∈ qualifier.parts, '/' ∈ part.text
  | .reference .user _ | .reference (.table _) _ | .url _ _ => True

/-! ## References -/

theorem isWhitespace_of_isUnquotedChar {c : Char} (h : isUnquotedChar c) :
    Unicode.isWhitespace c = false := by
  have hrange : 33 ≤ c.toNat ∧ c.toNat ≤ 122 := by
    simp only [isUnquotedChar, Char.isAlphanum, Ascii.isAlpha_eq, Bool.or_eq_true,
      decide_eq_true_eq, Ascii.isUpper_iff, Ascii.isLower_iff] at h
    rcases h with (((h | h) | h) | rfl) | rfl
    · omega
    · omega
    · simp only [Char.isDigit, Bool.and_eq_true, decide_eq_true_eq, UInt32.le_iff_toNat_le] at h
      exact ⟨le_trans (by decide) h.1, h.2.trans (by decide)⟩
    · decide
    · decide
  simp only [Unicode.isWhitespace, Bool.or_eq_false_iff, Bool.and_eq_false_iff, beq_eq_false_iff_ne,
    decide_eq_false_iff_not]
  omega

/-- A text that ends in no whitespace. -/
def EndsFirm (s : Text) : Prop := ∃ front c, s = front ++ [c] ∧ Unicode.isWhitespace c = false

theorem EndsFirm.append_left {s : Text} (h : EndsFirm s) (t : Text) : EndsFirm (t ++ s) := by
  obtain ⟨front, c, rfl, hc⟩ := h
  exact ⟨t ++ front, c, (List.append_assoc ..).symm, hc⟩

theorem IdentifierPart.endsFirm_spelled (part : IdentifierPart) : EndsFirm part.spelled := by
  cases hquoted : part.quoted with
  | true =>
      rw [spelled_of_quoted hquoted]
      exact ⟨'"' :: part.text.flatMap doubledQuote, '"', rfl, by decide⟩
  | false =>
      rw [spelled_of_unquoted hquoted]
      refine ⟨part.text.dropLast, part.text.getLast part.ne_nil,
        (List.dropLast_append_getLast part.ne_nil).symm, ?_⟩
      exact isWhitespace_of_isUnquotedChar (part.unquoted hquoted _ (List.getLast_mem _))

theorem endsFirm_spellPath {parts : List IdentifierPart} (hparts : parts ≠ []) :
    EndsFirm (spellPath parts) := by
  induction parts with
  | nil => exact absurd rfl hparts
  | cons part parts ih =>
      cases parts with
      | nil => exact part.endsFirm_spelled
      | cons next parts =>
          rw [spellPath, List.append_cons]
          exact (ih (List.cons_ne_nil _ _)).append_left _

theorem StagePath.parts_ne_nil (path : StagePath) : path.parts ≠ [] := by
  cases path <;> exact List.cons_ne_nil _ _

theorem Qualifier.parts_ne_nil (qualifier : Qualifier) : qualifier.parts ≠ [] := by
  cases qualifier <;> exact List.cons_ne_nil _ _

theorem StageReference.endsFirm_spelled (r : StageReference) : EndsFirm r.spelled := by
  cases r with
  | named path => exact endsFirm_spellPath path.parts_ne_nil
  | user => exact ⟨[], '~', rfl, by decide⟩
  | table t => exact t.endsFirm_spelled.append_left ['%']
  | qualifiedTable qualifier t =>
      rw [spelled, List.append_cons, List.append_cons]
      exact t.endsFirm_spelled.append_left _

theorem takeWhile_append_slash (s t : Text) :
    (s ++ '/' :: t).takeWhile (· ≠ '/') = s.takeWhile (· ≠ '/') := by
  rw [List.takeWhile_append]
  split_ifs with h
  · rw [List.takeWhile_cons_of_neg (by decide), List.append_nil]
    exact ((List.takeWhile_prefix _).eq_of_length h).symm
  · rfl

/-- The reference of a location up to its first slash. -/
theorem stageForLocation_reference (r : StageReference) (path : Option Text) (object : ObjectRef)
    (stages : List StageEntry) :
    stageForLocation (StageLocation.reference r path).text object stages =
      let path := r.spelled.takeWhile (· ≠ '/')
      if path.head? = some '~' ∨ path.head? = some '%' then none
      else parseObjectPath path object.database object.schema := by
  obtain ⟨front, c, hspelled, hc⟩ := r.endsFirm_spelled
  have htrim : ∃ rest, Unicode.trim (StageLocation.reference r path).text = '@' :: rest ∧
      rest.takeWhile (· ≠ '/') = r.spelled.takeWhile (· ≠ '/') := by
    cases path with
    | none =>
        refine ⟨r.spelled, ?_, rfl⟩
        rw [StageLocation.text, Unicode.trim, Unicode.trimStart_cons (by decide), hspelled,
          ← List.cons_append, Unicode.trimEnd_append_cons hc]
        rfl
    | some path =>
        refine ⟨r.spelled ++ '/' :: Unicode.trimEnd path, ?_, takeWhile_append_slash _ _⟩
        rw [StageLocation.text, Unicode.trim, Unicode.trimStart_cons (by decide),
          ← List.cons_append, Unicode.trimEnd_append_cons (by decide)]
        rfl
  obtain ⟨rest, htrim, htake⟩ := htrim
  simp only [stageForLocation, htrim, htake]

theorem count_trim {c : Char} (hc : Unicode.isWhitespace c = false) (s : Text) :
    (Unicode.trim s).count c = s.count c := by
  have hstart : (Unicode.trimStart s).count c = s.count c := by
    have hnot : c ∉ s.takeWhile Unicode.isWhitespace := fun hmem ↦
      absurd (List.mem_takeWhile_imp hmem) (Bool.eq_false_iff.mp hc)
    have hsplit := congrArg (List.count c)
      (List.takeWhile_append_dropWhile (p := Unicode.isWhitespace) (l := s))
    rw [List.count_append, List.count_eq_zero_of_not_mem hnot] at hsplit
    rw [Unicode.trimStart]
    omega
  rw [Unicode.trim, ← hstart]
  generalize Unicode.trimStart s = t
  induction t using List.reverseRecOn with
  | nil => rfl
  | append_singleton t d ih =>
      cases hd : Unicode.isWhitespace d with
      | true =>
          have hdc : d ≠ c := by
            rintro rfl
            rw [hc] at hd
            cases hd
          rw [Unicode.trimEnd, List.rdropWhile_concat_pos _ _ _ hd, List.count_append,
            List.count_singleton, if_neg (by simpa using hdc)]
          exact ih
      | false =>
          rw [Unicode.trimEnd_append_cons hd]
          rfl

/-- A path with a quote too many names nothing. -/
theorem parseObjectPath_of_odd {path : Text} (h : path.count '"' % 2 = 1) (database schema : Text) :
    parseObjectPath path database schema = none := by
  have hsplit : splitIdentifierPath path = none := by
    rw [splitIdentifierPath_eq]
    cases hparts : splitPath (Unicode.trim path) with
    | none => rfl
    | some parts =>
        have hcount := count_of_splitIdentifiers hparts
        rw [count_trim (by decide)] at hcount
        omega
  rw [parseObjectPath, hsplit]

/-- The first character of a spelled path. -/
theorem head?_spellPath {parts : List IdentifierPart} (hparts : parts ≠ []) :
    ∃ c rest, spellPath parts = c :: rest ∧ (c = '"' ∨ isUnquotedChar c) := by
  obtain ⟨part, parts, rfl⟩ := List.exists_cons_of_ne_nil hparts
  obtain ⟨c, rest, hspelled, hc⟩ : ∃ c rest, part.spelled = c :: rest ∧
      (c = '"' ∨ isUnquotedChar c) := by
    cases hquoted : part.quoted with
    | true => exact ⟨'"', _, IdentifierPart.spelled_of_quoted hquoted, .inl rfl⟩
    | false =>
        rw [IdentifierPart.spelled_of_unquoted hquoted]
        obtain ⟨c, rest, htext⟩ := List.exists_cons_of_ne_nil part.ne_nil
        refine ⟨c, rest, htext, .inr (part.unquoted hquoted c ?_)⟩
        rw [htext]
        exact List.mem_cons_self
  cases parts with
  | nil => exact ⟨c, rest, hspelled, hc⟩
  | cons next parts =>
      rw [spellPath, hspelled]
      exact ⟨c, _, rfl, hc⟩

theorem splitPath_spellPath_dot {parts : List IdentifierPart} (hparts : parts ≠ []) (rest : Text) :
    splitPath (spellPath parts ++ '.' :: rest) =
      (splitPath rest).map (parts.map IdentifierPart.name ++ ·) := by
  induction parts with
  | nil => exact absurd rfl hparts
  | cons part parts ih =>
      cases parts with
      | nil => exact part.splitPath_spelled_dot rest
      | cons next parts =>
          rw [spellPath, List.append_assoc, List.cons_append, part.splitPath_spelled_dot,
            ih (List.cons_ne_nil _ _), Option.map_map]
          rfl

theorem trim_of_ends {s : Text} {c : Char} {rest : Text} (hs : s = c :: rest)
    (hc : Unicode.isWhitespace c = false) (h : EndsFirm s) : Unicode.trim s = s := by
  obtain ⟨front, d, hd, hfirm⟩ := h
  have hstart : Unicode.trimStart s = s := by
    rw [hs]
    exact Unicode.trimStart_cons hc rest
  rw [Unicode.trim, hstart, hd, Unicode.trimEnd_append_cons hfirm]
  rfl

/-- A path that starts as a spelled one is no user or table stage. -/
theorem head?_ne {c : Char} (hc : c = '"' ∨ isUnquotedChar c) :
    ¬ (some c = some '~' ∨ some c = some '%') := by
  rintro (h | h)
  · rw [Option.some.inj h] at hc
    exact absurd hc (by decide)
  · rw [Option.some.inj h] at hc
    exact absurd hc (by decide)

theorem isWhitespace_of_spelled {c : Char} (hc : c = '"' ∨ isUnquotedChar c) :
    Unicode.isWhitespace c = false := by
  rcases hc with rfl | hc
  · decide
  · exact isWhitespace_of_isUnquotedChar hc

theorem takeWhile_eq_self {s : Text} (h : '/' ∉ s) : s.takeWhile (· ≠ '/') = s := by
  rw [List.takeWhile_eq_self_iff]
  intro c hc
  rw [decide_eq_true_eq]
  rintro rfl
  exact h hc

theorem slash_notMem_spellPath {parts : List IdentifierPart}
    (h : ∀ part ∈ parts, '/' ∉ part.text) : '/' ∉ spellPath parts := by
  induction parts with
  | nil => exact List.not_mem_nil
  | cons part parts ih =>
      obtain ⟨hpart, h⟩ := List.forall_mem_cons.mp h
      cases parts with
      | nil => exact IdentifierPart.slash_notMem_spelled hpart
      | cons next parts =>
          rw [spellPath, List.mem_append, List.mem_cons]
          rintro (hc | hc | hc)
          · exact IdentifierPart.slash_notMem_spelled hpart hc
          · exact absurd hc (by decide)
          · exact ih h hc

theorem named_joined_iff (path : StagePath) (rest : Option Text) (object : ObjectRef)
    (stages : List StageEntry) :
    stageForLocation (StageLocation.reference (.named path) rest).text object stages =
      some (path.stage object) ↔ ∀ part ∈ path.parts, '/' ∉ part.text := by
  rw [stageForLocation_reference, StageReference.spelled]
  by_cases h : ∀ part ∈ path.parts, '/' ∉ part.text
  · obtain ⟨c, tail, hhead, hc⟩ := head?_spellPath path.parts_ne_nil
    have htake := takeWhile_eq_self (slash_notMem_spellPath h)
    have htrim := trim_of_ends hhead (isWhitespace_of_spelled hc)
      (endsFirm_spellPath path.parts_ne_nil)
    have hsplit : splitIdentifierPath (spellPath path.parts) =
        some (path.parts.map IdentifierPart.name) := by
      rw [splitIdentifierPath_eq, htrim, splitPath_spellPath path.parts_ne_nil]
    have hhead? : (spellPath path.parts).head? = some c := by rw [hhead, List.head?_cons]
    simp only [htake, hhead?, if_neg (head?_ne hc), parseObjectPath, hsplit]
    refine iff_of_true ?_ h
    cases path <;> rfl
  · refine iff_of_false ?_ h
    simp only [not_forall, not_not] at h
    obtain ⟨part, hpart, hslash⟩ := h
    have hnone := parseObjectPath_of_odd (count_takeWhile_spellPath ⟨part, hpart, hslash⟩)
      object.database object.schema
    simp only [hnone, ite_self]
    exact nofun

theorem slash_mem_spellPath {parts : List IdentifierPart} (h : ∃ part ∈ parts, '/' ∈ part.text) :
    '/' ∈ spellPath parts := by
  by_contra hslash
  have hcount := count_takeWhile_spellPath h
  rw [takeWhile_eq_self hslash] at hcount
  have hsplit : splitPath (spellPath parts) = some (parts.map IdentifierPart.name) :=
    splitPath_spellPath (by rintro rfl; simp at h)
  have heven := count_of_splitIdentifiers hsplit
  omega

/-- Nothing after a text with a slash is before the first slash. -/
theorem takeWhile_append_of_slash {s : Text} (h : '/' ∈ s) (t : Text) :
    (s ++ t).takeWhile (· ≠ '/') = s.takeWhile (· ≠ '/') := by
  obtain ⟨before, after, rfl, -⟩ := List.eq_append_cons_of_mem h
  rw [List.append_assoc, List.cons_append, takeWhile_append_slash, takeWhile_append_slash]

/-- A quote after a percent sign is a stray one. -/
theorem splitPath_percent_quote (rest : Text) : splitPath ('%' :: '"' :: rest) = none := by
  refine splitPath_of_read_none ?_
  show readUnquoted ('%' :: '"' :: rest) = none
  have hquote : '"' ∈ ('%' :: '"' :: rest).takeWhile (· ≠ '.') := by
    rw [List.takeWhile_cons_of_pos (by decide), List.takeWhile_cons_of_pos (by decide)]
    exact List.mem_cons_of_mem _ List.mem_cons_self
  rw [readUnquoted]
  exact if_pos hquote

theorem splitPath_percent_unquoted {t : IdentifierPart} (h : t.quoted = false) :
    splitPath ('%' :: t.spelled) = some ['%' :: t.name] := by
  rw [IdentifierPart.spelled_of_unquoted h]
  have hchars := t.unquoted h
  have hquote : '"' ∉ '%' :: t.text := by
    rw [List.mem_cons]
    rintro (hc | hc)
    · exact absurd hc (by decide)
    · exact IdentifierPart.quote_notMem h hc
  have htake : ('%' :: t.text).takeWhile (· ≠ '.') = '%' :: t.text := by
    rw [List.takeWhile_eq_self_iff]
    intro c hc
    rw [decide_eq_true_eq]
    rintro rfl
    rcases List.mem_cons.mp hc with hc | hc
    · exact absurd hc (by decide)
    · exact absurd (hchars _ hc) (by decide)
  have hread : readIdentifier ('%' :: t.text) = some ('%' :: t.name, []) := by
    show readUnquoted ('%' :: t.text) = _
    have hdrop : ('%' :: t.text).dropWhile (· ≠ '.') = [] := by
      have hsplit := List.takeWhile_append_dropWhile (p := (· ≠ '.')) (l := '%' :: t.text)
      rw [htake] at hsplit
      exact List.self_eq_append_right.mp hsplit.symm
    simp only [readUnquoted, htake, hdrop, if_neg hquote, IdentifierPart.name, h]
    rfl
  exact splitPath_of_read_end hread (List.cons_ne_nil _ _)

theorem qualifiedTable_joined_iff (qualifier : Qualifier) (t : IdentifierPart) (rest : Option Text)
    (object : ObjectRef) (stages : List StageEntry) :
    stageForLocation (StageLocation.reference (.qualifiedTable qualifier t) rest).text object stages =
      none ↔ t.quoted ∨ ∃ part ∈ qualifier.parts, '/' ∈ part.text := by
  rw [stageForLocation_reference, StageReference.spelled]
  by_cases hslash : ∃ part ∈ qualifier.parts, '/' ∈ part.text
  · refine iff_of_true ?_ (.inr hslash)
    rw [takeWhile_append_of_slash (slash_mem_spellPath hslash)]
    simp only [parseObjectPath_of_odd (count_takeWhile_spellPath hslash), ite_self]
  · have hnoSlash : ∀ part ∈ qualifier.parts, '/' ∉ part.text := by simpa using hslash
    have htake : (spellPath qualifier.parts ++ '.' :: '%' :: t.spelled).takeWhile (· ≠ '/') =
        spellPath qualifier.parts ++ '.' :: '%' :: t.spelled.takeWhile (· ≠ '/') := by
      have hself := takeWhile_eq_self (slash_notMem_spellPath hnoSlash)
      rw [List.takeWhile_append_of_pos (List.takeWhile_eq_self_iff.mp hself)]
      rfl
    obtain ⟨c, tail, hhead, hc⟩ := head?_spellPath qualifier.parts_ne_nil
    have hws := isWhitespace_of_spelled hc
    rw [htake]
    cases hquoted : t.quoted with
    | true =>
        refine iff_of_true ?_ (.inl rfl)
        have hspelled : ∃ content, t.spelled.takeWhile (· ≠ '/') = '"' :: content := by
          rw [IdentifierPart.spelled_of_quoted hquoted, List.takeWhile_cons_of_pos (by decide)]
          exact ⟨_, rfl⟩
        obtain ⟨content, hcontent⟩ := hspelled
        have htrim : Unicode.trim (spellPath qualifier.parts ++ '.' :: '%' :: '"' :: content) =
            spellPath qualifier.parts ++ '.' :: '%' :: '"' :: Unicode.trimEnd content := by
          rw [Unicode.trim, hhead, List.cons_append, Unicode.trimStart_cons hws, ← List.cons_append,
            List.append_cons, List.append_cons, Unicode.trimEnd_append_cons (by decide)]
          simp
        have hsplit : splitIdentifierPath
            (spellPath qualifier.parts ++ '.' :: '%' :: '"' :: content) = none := by
          rw [splitIdentifierPath_eq, htrim, splitPath_spellPath_dot qualifier.parts_ne_nil,
            splitPath_percent_quote, Option.map_none]
        simp only [hcontent, parseObjectPath, hsplit, ite_self]
    | false =>
        refine iff_of_false ?_ (by simp [hslash])
        have hself : t.spelled.takeWhile (· ≠ '/') = t.spelled := by
          rw [IdentifierPart.spelled_of_unquoted hquoted]
          refine takeWhile_eq_self fun hc ↦ ?_
          exact absurd (t.unquoted hquoted _ hc) (by decide)
        have hfirm : EndsFirm (spellPath qualifier.parts ++ '.' :: '%' :: t.spelled) := by
          rw [List.append_cons, List.append_cons]
          exact t.endsFirm_spelled.append_left _
        have htrim := trim_of_ends (s := spellPath qualifier.parts ++ '.' :: '%' :: t.spelled)
          (by rw [hhead]; rfl) hws hfirm
        have hsplit : splitIdentifierPath (spellPath qualifier.parts ++ '.' :: '%' :: t.spelled) =
            some (qualifier.parts.map IdentifierPart.name ++ ['%' :: t.name]) := by
          rw [splitIdentifierPath_eq, htrim, splitPath_spellPath_dot qualifier.parts_ne_nil,
            splitPath_percent_unquoted hquoted, Option.map_some]
        have hhead? : (spellPath qualifier.parts ++ '.' :: '%' :: t.spelled).head? = some c := by
          rw [hhead]
          rfl
        simp only [hself, hhead?, if_neg (head?_ne hc), parseObjectPath, hsplit]
        cases qualifier with
        | schema | databaseSchema =>
            intro h
            cases h

/-! ## URLs -/

/-- The longest candidate is one of the candidates. -/
theorem longest_spec (candidates : List (Nat × ObjectRef)) :
    match longest candidates with
    | none => candidates = []
    | some best => best ∈ candidates ∧ ∀ candidate ∈ candidates, candidate.1 ≤ best.1 := by
  induction candidates using List.reverseRecOn with
  | nil => rfl
  | append_singleton candidates last ih =>
      rw [longest, List.foldl_append, List.foldl_cons, List.foldl_nil, ← longest]
      cases hlongest : longest candidates with
      | none =>
          rw [hlongest] at ih
          simp only at ih
          rw [ih]
          exact ⟨List.mem_singleton_self last, fun c hc ↦ by rw [List.mem_singleton.mp hc]⟩
      | some best =>
          rw [hlongest] at ih
          obtain ⟨hmem, hmax⟩ := ih
          simp only
          split_ifs with hle
          · refine ⟨List.mem_append_right _ (List.mem_singleton_self last), ?_⟩
            intro c hc
            rcases List.mem_append.mp hc with hc | hc
            · exact (hmax c hc).trans hle
            · rw [List.mem_singleton.mp hc]
          · refine ⟨List.mem_append_left _ hmem, ?_⟩
            intro c hc
            rcases List.mem_append.mp hc with hc | hc
            · exact hmax c hc
            · rw [List.mem_singleton.mp hc]
              exact Nat.le_of_not_le hle

theorem isUnder_iff {location url : Text} : isUnder location url ↔ FallsUnder location url := by
  simp only [isUnder, FallsUnder, Bool.and_eq_true, Bool.or_eq_true, decide_eq_true_eq]
  refine and_congr Iff.rfl (or_congr Iff.rfl ?_)
  constructor
  · rintro ⟨rest, h⟩
    exact ⟨rest, by rw [← h, List.append_assoc]; rfl⟩
  · rintro ⟨rest, h⟩
    exact ⟨rest, by rw [h, List.append_assoc]; rfl⟩

/-- The stages whose URL covers a location, with the lengths of the URLs. -/
def candidates (location : Text) (stages : List StageEntry) : List (Nat × ObjectRef) :=
  stages.filterMap fun stage ↦
    stage.url.bind fun url ↦
      let url := trimSlashes url
      if isUnder location url then some ((Utf8.encode url).length, stage.stage) else none

theorem mem_candidates {location : Text} {stages : List StageEntry} {length : Nat}
    {stage : ObjectRef} :
    (length, stage) ∈ candidates location stages ↔ Covers location stages length stage := by
  rw [candidates, List.mem_filterMap]
  refine exists_congr fun entry ↦ and_congr Iff.rfl ?_
  rw [Option.bind_eq_some_iff]
  refine exists_congr fun url ↦ and_congr Iff.rfl ?_
  simp only [isUnder_iff, Option.ite_none_right_eq_some, Option.some.injEq, Prod.mk.injEq]

theorem stageForLocation_url {text : Text} (h : (Unicode.trim text).head? ≠ some '@')
    (object : ObjectRef) (stages : List StageEntry) :
    stageForLocation text object stages =
      (longest (candidates (Unicode.trim text) stages)).map Prod.snd := by
  unfold stageForLocation
  split
  next reference htrim => exact absurd (by rw [htrim]; rfl) h
  next => rfl

/-- The stage of a location is the one that it is to be joined to, just in case
the first slash and the first character tell its parts apart. -/
theorem stageForLocation_joined_iff (location : StageLocation) (object : ObjectRef)
    (stages : List StageEntry) :
    Joined object stages (stageForLocation location.text object stages) location ↔
      Separable location := by
  cases location with
  | reference r path =>
      cases r with
      | named stage => exact named_joined_iff stage path object stages
      | user =>
          refine iff_of_true ?_ trivial
          rw [Joined, stageForLocation_reference]
          rfl
      | table t =>
          refine iff_of_true ?_ trivial
          rw [Joined, stageForLocation_reference, StageReference.spelled,
            List.takeWhile_cons_of_pos (by decide)]
          simp
      | qualifiedTable qualifier t => exact qualifiedTable_joined_iff qualifier t path object stages
  | url text h =>
      refine iff_of_true ?_ trivial
      simp only [StageLocation.text, stageForLocation_url h]
      have hspec := longest_spec (candidates (Unicode.trim text) stages)
      cases hlongest : longest (candidates (Unicode.trim text) stages) with
      | none =>
          rw [hlongest] at hspec
          intro length stage hcovers
          have hmem := mem_candidates.mpr hcovers
          rw [show candidates (Unicode.trim text) stages = [] from hspec] at hmem
          cases hmem
      | some best =>
          rw [hlongest] at hspec
          obtain ⟨hmem, hmax⟩ := hspec
          refine ⟨best.1, mem_candidates.mp hmem, ?_⟩
          intro length' stage' hcovers
          exact hmax _ (mem_candidates.mpr hcovers)

section Example

def exampleTable : ObjectRef := ⟨"DB".toList, "PUBLIC".toList, "EXT".toList⟩

def unquotedPart (text : String) (h : text.toList ≠ [] ∧ text.toList.all isUnquotedChar) :
    IdentifierPart where
  quoted := false
  text := text.toList
  ne_nil := h.1
  unquoted _ := List.all_eq_true.mp h.2

def quotedPart (text : String) (h : text.toList ≠ []) : IdentifierPart where
  quoted := true
  text := text.toList
  ne_nil := h
  unquoted h := nomatch h

/-- The location `@"a/b"/x`. -/
def slashLocation : StageLocation :=
  .reference (.named (.name (quotedPart "a/b" (by decide)))) (some ['x'])

/-- The location `@db.schema.%t`. -/
def tableLocation : StageLocation :=
  .reference (.qualifiedTable (.databaseSchema (unquotedPart "db" (by decide))
    (unquotedPart "schema" (by decide))) (unquotedPart "t" (by decide))) none

/-- The stage of a quoted name with a slash is not found, and a qualified table
stage is taken for a named one. -/
theorem not_joined_slash_table :
    ¬ Joined exampleTable [] (stageForLocation slashLocation.text exampleTable []) slashLocation ∧
      ¬ Joined exampleTable [] (stageForLocation tableLocation.text exampleTable [])
        tableLocation := by
  have hnone : stageForLocation slashLocation.text exampleTable [] = none := by decide +kernel
  have hsome : stageForLocation tableLocation.text exampleTable [] =
      some ⟨"DB".toList, "SCHEMA".toList, "%T".toList⟩ := by
    decide +kernel
  rw [hnone, hsome]
  exact ⟨nofun, nofun⟩

end Example

end FrankenSnowflake.Catalog
