import FrankenSnowflake.Core.SqlLexer

/-!
# Reads without side effects

Statements are the segments between top-level semicolons.  A statement is a
read by its verb, and a read without side effects names no acting system
function and no sequence.
-/

namespace FrankenSnowflake.SqlLexer

/-- The statement verbs that make a single statement a read. -/
def readVerbs : List (List Char) :=
  ["select", "show", "describe", "desc", "explain", "list", "ls"].map String.toList

/-- Verbs that change data, schema, grants, session state or stages. -/
def mutatingVerbs : List (List Char) :=
  ["alter", "begin", "call", "commit", "copy", "create", "delete", "drop", "execute", "get",
    "grant", "insert", "merge", "put", "remove", "revoke", "rm", "rollback", "set", "truncate",
    "undrop", "unset", "update", "use"].map String.toList

def isMutatingVerb (word : List Char) : Bool := mutatingVerbs.contains word

/-- The main verb behind the common table expressions of a `WITH`, at the given
depth of parentheses. -/
def withMainVerbIsSelect : Nat → List SqlToken → Bool
  | _, [] => false
  | depth, t :: ts =>
      let depth :=
        if t.text = ['('] then depth + 1 else if t.text = [')'] then depth - 1 else depth
      if depth ≠ 0 then withMainVerbIsSelect depth ts
      else
        match t.word? with
        | none => withMainVerbIsSelect depth ts
        | some word =>
            if word = "select".toList then true
            else if isMutatingVerb word then false
            else withMainVerbIsSelect depth ts

/-- Only opening parentheses may precede the statement verb of a read. -/
def isReadStatement (lexed : SqlLex) : Bool :=
  match lexed.significant.dropWhile (·.text = ['(']) with
  | [] => false
  | t :: ts =>
      match t.word? with
      | none => false
      | some first =>
          if readVerbs.contains first then true
          else if first ≠ "with".toList then false
          else withMainVerbIsSelect 0 ts

/-- System functions that only read state. -/
def readOnlySystemFunctions : List (List Char) :=
  ["system$allowlist", "system$allowlist_privatelink", "system$behavior_change_bundle_status",
    "system$clustering_depth", "system$clustering_information", "system$clustering_ratio",
    "system$current_user_task_name", "system$explain_json_to_text", "system$explain_plan_json",
    "system$get_predecessor_return_value", "system$get_privatelink_config", "system$get_tag",
    "system$get_tag_allowed_values", "system$get_tag_on_current_column",
    "system$get_tag_on_current_table", "system$last_change_commit_time", "system$pipe_status",
    "system$stream_get_table_timestamp", "system$stream_has_data", "system$typeof", "system$wait",
    "system$whitelist", "system$whitelist_privatelink"].map String.toList

/-- A word with a side effect: an acting system function or `NEXTVAL`. -/
def isSideEffectWord (word : List Char) : Bool :=
  ("system$".toList.isPrefixOf word && !readOnlySystemFunctions.contains word) ||
    word = "nextval".toList

/-- The first side-effecting construct in a read statement. -/
def readSideEffect (lexed : SqlLex) : Option (List Char) := lexed.words.find? isSideEffectWord

/-- The first executable word, lower-cased. -/
def SqlLex.firstWord (l : SqlLex) : Option (List Char) := l.significant.findSome? SqlToken.word?

/-! ## Statements -/

/-- The loop of `hasEmptyStatement`: `content` is `segment_has_content`. -/
def closesEmpty : Bool → List SqlToken → Bool
  | _, [] => false
  | content, t :: ts =>
      if t.kind = .semicolon then !content || closesEmpty false ts else closesEmpty true ts

/-- A `;` closes a statement with nothing in it. -/
def SqlLex.hasEmptyStatement (l : SqlLex) : Bool := closesEmpty false l.significant

/-- Split a text at a byte offset, which must be a character boundary. -/
def splitAtByte : Nat → List Char → Option (List Char × List Char)
  | 0, s => some ([], s)
  | _ + 1, [] => none
  | n + 1, c :: s =>
      if c.utf8Size ≤ n + 1 then
        (splitAtByte (n + 1 - c.utf8Size) s).map fun r ↦ (c :: r.1, r.2)
      else none

/-- `sql.get(start..stop)`. -/
def sliceBytes (sql : List Char) (start stop : Nat) : Option (List Char) :=
  if start ≤ stop then do
    let (_, rest) ← splitAtByte start sql
    let (slice, _) ← splitAtByte (stop - start) rest
    pure slice
  else none

/-- The spans of the statements: from the first to the last significant token
of each segment, as byte offsets.  `span` is the segment read so far. -/
def statementSpans : Option (Nat × Nat) → List SqlToken → List (Nat × Nat)
  | span, [] => span.toList
  | span, t :: ts =>
      if t.kind = .semicolon then span.toList ++ statementSpans none ts
      else
        let stop := t.start + utf8Len t.text
        statementSpans (some (span.elim (t.start, stop) fun s ↦ (s.1, stop))) ts

/-- The text of each statement in `sql`, in order. -/
def splitStatements (sql : List Char) : List (List Char) :=
  (statementSpans none (lex sql).significant).filterMap fun s ↦ sliceBytes sql s.1 s.2

/-- Running `sql` a second time would change nothing. -/
def isSideEffectFreeRead (sql : List Char) : Bool :=
  if (lex sql).isUnreliable then false
  else
    let statements := splitStatements sql
    !statements.isEmpty && statements.all fun statement ↦
      isReadStatement (lex statement) && (readSideEffect (lex statement)).isNone

end FrankenSnowflake.SqlLexer
