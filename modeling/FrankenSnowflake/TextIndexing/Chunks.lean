import FrankenSnowflake.Foundation.Digits
import FrankenSnowflake.Foundation.JsonDoc
import FrankenSnowflake.Foundation.Unicode
import FrankenSnowflake.Foundation.Uri

/-!
# Text chunks

The text of a result's cells as documents for an index: the source of a
document, its handle, and its JSON.
-/

namespace FrankenSnowflake.TextIndexing

open Foundation JsonRead

abbrev Text := List Char

def textIndexSchemaVersion : Nat := 1

/-! ## Sources and handles -/

inductive TextSourceRef where
  | queryResult (receiptHash : Text) (statementHandle queryId datasetId objectRefRedacted : Option Text)
  | stagedDocument (receiptHash datasetId : Option Text) (stageUriRedacted objectFingerprint : Text)
deriving DecidableEq

inductive TextSourceKind where
  | queryResult
  | stagedDocument
deriving DecidableEq

def TextSourceKind.asHandleComponent : TextSourceKind → Text
  | queryResult => "query".toList
  | stagedDocument => "stage".toList

/-- A byte of a handle's component that stands for itself. -/
def isKept (byte : UInt8) : Bool :=
  (0x41 ≤ byte && byte ≤ 0x5a) || (0x61 ≤ byte && byte ≤ 0x7a) || (0x30 ≤ byte && byte ≤ 0x39) ||
    byte = 0x2d || byte = 0x2e || byte = 0x5f || byte = 0x7e

def escapeComponent (value : Text) : Text :=
  (Utf8.encode value).flatMap (Uri.percentEscape isKept Nat.digitChar)

namespace TextSourceRef

def kind : TextSourceRef → TextSourceKind
  | queryResult .. => .queryResult
  | stagedDocument .. => .stagedDocument

def stableSourceId : TextSourceRef → Text
  | queryResult receiptHash .. => escapeComponent ("receipt:".toList ++ receiptHash)
  | stagedDocument _ _ _ objectFingerprint =>
      escapeComponent ("object:".toList ++ objectFingerprint)

end TextSourceRef

inductive TextIndexError where
  | emptyText (handle : Text)
  | missingField (field : Text)
deriving DecidableEq

/-- Nothing but whitespace. -/
def isBlank (s : Text) : Bool := Unicode.trim s = []

def TextSourceRef.validate : TextSourceRef → Except TextIndexError Unit
  | .queryResult receiptHash .. =>
      if isBlank receiptHash then .error (.missingField "receipt_hash".toList) else .ok ()
  | .stagedDocument _ _ stageUriRedacted objectFingerprint =>
      if isBlank stageUriRedacted then .error (.missingField "stage_uri_redacted".toList)
      else if isBlank objectFingerprint then .error (.missingField "object_fingerprint".toList)
      else .ok ()

/-- `TextDocumentHandle::from_source`. -/
def fromSource (source : TextSourceRef) (columnOrPath : Text) (chunkOrdinal : UInt32) : Text :=
  "fsnow-text:v".toList ++ (Nat.toDigits 10 textIndexSchemaVersion ++ ':' ::
    (source.kind.asHandleComponent ++ ':' :: (source.stableSourceId ++ ':' ::
      (escapeComponent columnOrPath ++ ':' :: Nat.toDigits 10 chunkOrdinal.toNat))))

/-! ## Chunks -/

inductive RightsClass where
  | isPublic
  | internal
  | isPrivate
  | restricted
deriving DecidableEq

structure TextChunk where
  handle : Text
  source : TextSourceRef
  columnOrPath : Text
  chunkOrdinal : UInt32
  title : Option Text
  text : Text
  rightsClass : RightsClass
  sensitivityTags : List Text
deriving DecidableEq

namespace TextChunk

def new (source : TextSourceRef) (columnOrPath : Text) (chunkOrdinal : UInt32) (text : Text)
    (rightsClass : RightsClass) : TextChunk where
  handle := fromSource source columnOrPath chunkOrdinal
  source := source
  columnOrPath := columnOrPath
  chunkOrdinal := chunkOrdinal
  title := none
  text := text
  rightsClass := rightsClass
  sensitivityTags := []

def withTitle (chunk : TextChunk) (title : Text) : TextChunk := { chunk with title := some title }

def titled (chunk : TextChunk) : Option Text → TextChunk
  | some title => chunk.withTitle title
  | none => chunk

def validate (chunk : TextChunk) : Except TextIndexError Unit := do
  chunk.source.validate
  if isBlank chunk.columnOrPath then .error (.missingField "column_or_path".toList)
  else if isBlank chunk.text then .error (.emptyText chunk.handle)
  else .ok ()

end TextChunk

abbrev Row := List (Option Text)

/-- The cell of a row, if it is there and not null. -/
def cell (row : Row) (index : Nat) : Option Text := row[index]?.join

/-- The cell of a row, if it is not blank. -/
def cellText (row : Row) (index : Nat) : Option Text := (cell row index).filter (!isBlank ·)

section Rows

variable (source : TextSourceRef) (columns : List (Nat × Text)) (idColumn : Option Nat)
  (rightsClass : RightsClass)

/-- The chunks of a row. -/
def rowChunks (ordinal : UInt32) (row : Row) : List TextChunk :=
  let title := (idColumn.bind (cell row)).filter (!isBlank ·)
  columns.filterMap fun (index, name) ↦
    match cell row index with
    | none => none
    | some text =>
        if isBlank text then none
        else
          some ((TextChunk.new source name ordinal text rightsClass).titled title)

/-- The chunks of rows from a row on; they end where the row is no ordinal. -/
def chunksFrom (rowIndex : Nat) : List Row → List TextChunk
  | [] => []
  | row :: rows =>
      if rowIndex < 2 ^ 32 then
        rowChunks source columns idColumn rightsClass (UInt32.ofNat rowIndex) row ++
          chunksFrom (rowIndex + 1) rows
      else []

def chunksFromRows (rows : List Row) : List TextChunk :=
  chunksFrom source columns idColumn rightsClass 0 rows

end Rows

/-! ## The JSON of a chunk -/

/-- An object with these members. -/
def record (members : List (String × Doc)) : Doc := .object (members.map fun m ↦ (m.1.toList, m.2))

def optionalText : Option Text → Doc
  | none => .null
  | some s => .string s

namespace TextSourceRef

def toDoc : TextSourceRef → Doc
  | queryResult receiptHash statementHandle queryId datasetId objectRefRedacted => record
      [("source_kind", .string "query_result".toList), ("receipt_hash", .string receiptHash),
        ("statement_handle", optionalText statementHandle), ("query_id", optionalText queryId),
        ("dataset_id", optionalText datasetId),
        ("object_ref_redacted", optionalText objectRefRedacted)]
  | stagedDocument receiptHash datasetId stageUriRedacted objectFingerprint => record
      [("source_kind", .string "staged_document".toList),
        ("receipt_hash", optionalText receiptHash), ("dataset_id", optionalText datasetId),
        ("stage_uri_redacted", .string stageUriRedacted),
        ("object_fingerprint", .string objectFingerprint)]

/-- The tag of a source, and the rest of it. -/
def tagged : Doc → Option (Text × Doc)
  | .object members => do
      let tag ← Doc.asString (← ← Doc.member members "source_kind".toList)
      return (tag, .object (members.filter (·.1 ≠ "source_kind".toList)))
  | .array (tag :: items) => do return (← tag.asString, .array items)
  | .array [] | .null | .bool _ | .integer _ | .decimal _ | .string _ => none

def fromDoc (d : Doc) : Option TextSourceRef := do
  let (tag, d) ← tagged d
  if tag = "query_result".toList then
    match ← d.fields ["receipt_hash".toList, "statement_handle".toList, "query_id".toList,
        "dataset_id".toList, "object_ref_redacted".toList] with
    | [receiptHash, statementHandle, queryId, datasetId, objectRefRedacted] =>
        return .queryResult (← (← receiptHash).asString) (← Doc.optional Doc.asString statementHandle)
          (← Doc.optional Doc.asString queryId) (← Doc.optional Doc.asString datasetId)
          (← Doc.optional Doc.asString objectRefRedacted)
    | _ => none
  else if tag = "staged_document".toList then
    match ← d.fields ["receipt_hash".toList, "dataset_id".toList, "stage_uri_redacted".toList,
        "object_fingerprint".toList] with
    | [receiptHash, datasetId, stageUriRedacted, objectFingerprint] =>
        return .stagedDocument (← Doc.optional Doc.asString receiptHash)
          (← Doc.optional Doc.asString datasetId) (← (← stageUriRedacted).asString)
          (← (← objectFingerprint).asString)
    | _ => none
  else none

end TextSourceRef

namespace RightsClass

def name : RightsClass → Text
  | isPublic => "public".toList
  | internal => "internal".toList
  | isPrivate => "private".toList
  | restricted => "restricted".toList

def ofName? (s : Text) : Option RightsClass :=
  [isPublic, internal, isPrivate, restricted].find? (·.name = s)

end RightsClass

namespace TextChunk

def toDoc (chunk : TextChunk) : Doc := record
  [("handle", .string chunk.handle), ("source", chunk.source.toDoc),
    ("column_or_path", .string chunk.columnOrPath),
    ("chunk_ordinal", .integer chunk.chunkOrdinal.toNat), ("title", optionalText chunk.title),
    ("text", .string chunk.text), ("rights_class", .string chunk.rightsClass.name),
    ("sensitivity_tags", .array (chunk.sensitivityTags.map .string))]

/-- A chunk of its fields in their order. -/
def ofFields : List (Option Doc) → Option TextChunk
  | [handle, source, columnOrPath, chunkOrdinal, title, text, rightsClass, sensitivityTags] => do
      return {
        handle := ← (← handle).asString
        source := ← TextSourceRef.fromDoc (← source)
        columnOrPath := ← (← columnOrPath).asString
        chunkOrdinal := UInt32.ofNat (← (← chunkOrdinal).asUnsigned 32)
        title := ← Doc.optional Doc.asString title
        text := ← (← text).asString
        rightsClass := ← RightsClass.ofName? (← (← rightsClass).asVariant)
        sensitivityTags := ← (← (← sensitivityTags).asArray).mapM Doc.asString }
  | _ => none

def fromDoc (d : Doc) : Option TextChunk := do
  ofFields (← d.fields ["handle".toList, "source".toList, "column_or_path".toList,
    "chunk_ordinal".toList, "title".toList, "text".toList, "rights_class".toList,
    "sensitivity_tags".toList])

end TextChunk

/-! ## Handles are distinct -/

theorem isKept_of_lt : ∀ n < 256, isKept (UInt8.ofNat n) = true →
    UInt8.ofNat n < 0x80 ∧ Char.ofNat (UInt8.ofNat n).toNat ≠ '%' := by decide +kernel

theorem ascii_of_isKept (byte : UInt8) (h : isKept byte = true) :
    byte < 0x80 ∧ Char.ofNat byte.toNat ≠ '%' := by
  have hbyte := isKept_of_lt byte.toNat byte.toNat_lt
  rw [UInt8.ofNat_toNat] at hbyte
  exact hbyte h

theorem escapeComponent_injective : Function.Injective escapeComponent :=
  Uri.percentEscape_injective ascii_of_isKept (by decide)

theorem percentEscape_colon_of_lt : ∀ n < 256,
    ':' ∉ Uri.percentEscape isKept Nat.digitChar (UInt8.ofNat n) := by decide +kernel

/-- A component has no delimiter. -/
theorem colon_notMem_escapeComponent (value : Text) : ':' ∉ escapeComponent value := by
  intro h
  obtain ⟨byte, -, hbyte⟩ := List.mem_flatMap.mp h
  have hcolon := percentEscape_colon_of_lt byte.toNat byte.toNat_lt
  rw [UInt8.ofNat_toNat] at hcolon
  exact hcolon hbyte

/-- What stands in front of a delimiter that it does not hold. -/
theorem append_delimiter_inj {c : Char} {s s' t t' : Text} (hs : c ∉ s) (hs' : c ∉ s')
    (h : s ++ c :: t = s' ++ c :: t') : s = s' ∧ t = t' := by
  induction s generalizing s' with
  | nil =>
      cases s' with
      | nil => exact ⟨rfl, (List.cons.inj h).2⟩
      | cons d s' => exact absurd ((List.cons.inj h).1 ▸ List.mem_cons_self) hs'
  | cons d s ih =>
      cases s' with
      | nil => exact absurd ((List.cons.inj h).1 ▸ List.mem_cons_self) hs
      | cons d' s' =>
          obtain ⟨rfl, htail⟩ := List.cons.inj h
          obtain ⟨rfl, rfl⟩ := ih (fun hc ↦ hs (List.mem_cons_of_mem d hc))
            (fun hc ↦ hs' (List.mem_cons_of_mem d hc)) htail
          exact ⟨rfl, rfl⟩

/-- A handle says the kind and the id of its source, the column and the ordinal. -/
theorem fromSource_inj {source source' : TextSourceRef} {column column' : Text}
    {ordinal ordinal' : UInt32}
    (h : fromSource source column ordinal = fromSource source' column' ordinal') :
    source.kind.asHandleComponent = source'.kind.asHandleComponent ∧
      source.stableSourceId = source'.stableSourceId ∧ column = column' ∧ ordinal = ordinal' := by
  have hid : ∀ source : TextSourceRef, ':' ∉ source.stableSourceId := fun source ↦ by
    cases source with
    | queryResult => exact colon_notMem_escapeComponent _
    | stagedDocument => exact colon_notMem_escapeComponent _
  have hkind : ∀ kind : TextSourceKind, ':' ∉ kind.asHandleComponent := fun kind ↦ by
    cases kind with
    | queryResult => decide
    | stagedDocument => decide
  obtain ⟨-, h⟩ := append_delimiter_inj (by decide) (by decide) (List.append_cancel_left h)
  obtain ⟨hkinds, h⟩ := append_delimiter_inj (hkind _) (hkind _) h
  obtain ⟨hids, h⟩ := append_delimiter_inj (hid _) (hid _) h
  obtain ⟨hcolumn, h⟩ := append_delimiter_inj (colon_notMem_escapeComponent _)
    (colon_notMem_escapeComponent _) h
  exact ⟨hkinds, hids, escapeComponent_injective hcolumn,
    UInt32.toNat_inj.mp (Digits.toDigits_injective h)⟩

/-! ## Chunks are read as they are written -/

theorem optional_optionalText (s : Option Text) :
    Doc.optional Doc.asString (some (optionalText s)) = some s := by
  cases s with
  | none => rfl
  | some s => rfl

theorem fields_record {members : List (String × Doc)} (h : (members.map Prod.fst).Nodup) :
    Doc.fields (members.map fun m ↦ m.1.toList) (record members) =
      some (members.map (some ·.2)) := by
  have hnodup : ((members.map fun m ↦ (m.1.toList, m.2)).map Prod.fst).Nodup := by
    rw [List.map_map]
    have hinjective : Function.Injective String.toList := fun _ _ ↦ String.toList_injective
    have hnames := List.Nodup.map hinjective h
    rwa [List.map_map] at hnames
  have hfields := Doc.fields_object hnodup
  rw [List.map_map, List.map_map] at hfields
  exact hfields

theorem tagged_record {members : List (String × Doc)} (h : "source_kind" ∉ members.map Prod.fst)
    (tag : Text) : TextSourceRef.tagged (record (("source_kind", .string tag) :: members)) =
      some (tag, record members) := by
  have hkeys : "source_kind".toList ∉ (members.map fun m ↦ (m.1.toList, m.2)).map Prod.fst := by
    rw [List.map_map, List.mem_map]
    rintro ⟨m, hm, hkey⟩
    exact h (String.toList_injective hkey ▸ List.mem_map_of_mem hm)
  have hrest : (members.map fun m ↦ (m.1.toList, m.2)).filter (·.1 ≠ "source_kind".toList) =
      members.map fun m ↦ (m.1.toList, m.2) := by
    rw [List.filter_eq_self]
    intro m hm
    rw [decide_eq_true_eq]
    intro hkey
    exact hkeys (hkey ▸ List.mem_map_of_mem hm)
  rw [record, List.map_cons, TextSourceRef.tagged, Doc.member_cons_self hkeys,
    List.filter_cons_of_neg (by simp), hrest]
  rfl

theorem TextSourceRef.fromDoc_toDoc (source : TextSourceRef) : fromDoc source.toDoc = some source := by
  cases source with
  | queryResult receiptHash statementHandle queryId datasetId objectRefRedacted =>
      rw [toDoc, fromDoc, tagged_record (by simp), Option.bind_eq_bind, Option.bind_some]
      have hfields := @fields_record [("receipt_hash", Doc.string receiptHash),
        ("statement_handle", optionalText statementHandle), ("query_id", optionalText queryId),
        ("dataset_id", optionalText datasetId),
        ("object_ref_redacted", optionalText objectRefRedacted)] (by simp)
      simp only [List.map_cons, List.map_nil] at hfields
      simp only [if_pos, hfields, Option.bind_some, Option.bind_eq_bind, optional_optionalText,
        Doc.asString, Option.pure_def]
  | stagedDocument receiptHash datasetId stageUriRedacted objectFingerprint =>
      rw [toDoc, fromDoc, tagged_record (by simp), Option.bind_eq_bind, Option.bind_some]
      have hfields := @fields_record [("receipt_hash", optionalText receiptHash),
        ("dataset_id", optionalText datasetId), ("stage_uri_redacted", .string stageUriRedacted),
        ("object_fingerprint", .string objectFingerprint)] (by simp)
      have hne : "staged_document".toList ≠ "query_result".toList := by simp
      simp only [List.map_cons, List.map_nil] at hfields
      simp only [if_neg hne, if_pos, hfields, Option.bind_some, Option.bind_eq_bind,
        optional_optionalText, Doc.asString, Option.pure_def]

theorem RightsClass.ofName?_name (rights : RightsClass) : ofName? rights.name = some rights := by
  cases rights <;> decide

theorem mapM_asString (tags : List Text) : (tags.map Doc.string).mapM Doc.asString = some tags := by
  induction tags with
  | nil => rfl
  | cons tag tags ih => simp [Doc.asString, ih]

theorem TextChunk.ofFields_eq {handle columnOrPath text : Text} {source ordinal title rights : Doc}
    {chunk : TextChunk} {tags : List Doc} (hhandle : handle = chunk.handle)
    (hsource : TextSourceRef.fromDoc source = some chunk.source)
    (hcolumn : columnOrPath = chunk.columnOrPath)
    (hordinal : ordinal.asUnsigned 32 = some chunk.chunkOrdinal.toNat)
    (htitle : Doc.optional Doc.asString (some title) = some chunk.title)
    (htext : text = chunk.text) (hrights : rights.asVariant.bind RightsClass.ofName? =
      some chunk.rightsClass) (htags : tags.mapM Doc.asString = some chunk.sensitivityTags) :
    ofFields [some (.string handle), some source, some (.string columnOrPath), some ordinal,
      some title, some (.string text), some rights, some (.array tags)] = some chunk := by
  obtain ⟨name, hname, hrights⟩ := Option.bind_eq_some_iff.mp hrights
  simp only [ofFields, Option.bind_eq_bind, Option.bind_some, Doc.asString, Doc.asArray, hsource,
    hordinal, htitle, hname, hrights, htags, UInt32.ofNat_toNat, hhandle, hcolumn, htext,
    Option.pure_def]

theorem TextChunk.fromDoc_toDoc (chunk : TextChunk) : fromDoc chunk.toDoc = some chunk := by
  have hfields := @fields_record [("handle", .string chunk.handle),
    ("source", chunk.source.toDoc), ("column_or_path", .string chunk.columnOrPath),
    ("chunk_ordinal", .integer chunk.chunkOrdinal.toNat), ("title", optionalText chunk.title),
    ("text", .string chunk.text), ("rights_class", .string chunk.rightsClass.name),
    ("sensitivity_tags", .array (chunk.sensitivityTags.map .string))] (by simp)
  simp only [List.map_cons, List.map_nil] at hfields
  rw [toDoc, fromDoc, hfields, Option.bind_eq_bind, Option.bind_some]
  exact ofFields_eq rfl (TextSourceRef.fromDoc_toDoc _) rfl
    (Doc.asUnsigned_natCast chunk.chunkOrdinal.toNat_lt) (optional_optionalText _) rfl
    (RightsClass.ofName?_name _) (mapM_asString _)

theorem exact_optionalText (s : Option Text) : (optionalText s).Exact := by
  cases s with
  | none => trivial
  | some s => trivial

theorem TextSourceRef.exact_toDoc (source : TextSourceRef) : source.toDoc.Exact := by
  cases source with
  | queryResult receiptHash statementHandle queryId datasetId objectRefRedacted =>
      exact ⟨trivial, trivial, exact_optionalText _, exact_optionalText _, exact_optionalText _,
        exact_optionalText _, trivial⟩
  | stagedDocument receiptHash datasetId stageUriRedacted objectFingerprint =>
      exact ⟨trivial, exact_optionalText _, exact_optionalText _, trivial, trivial, trivial⟩

theorem exactItems_string (tags : List Text) : Doc.ExactItems (tags.map .string) := by
  induction tags with
  | nil => trivial
  | cons tag tags ih => exact ⟨trivial, ih⟩

theorem TextChunk.exact_toDoc (chunk : TextChunk) : chunk.toDoc.Exact :=
  ⟨trivial, chunk.source.exact_toDoc, trivial, trivial, exact_optionalText _, trivial, trivial,
    exactItems_string chunk.sensitivityTags, trivial⟩

/-! ## The chunks of rows -/

@[simp] theorem TextChunk.titled_handle (chunk : TextChunk) (title : Option Text) :
    (chunk.titled title).handle = chunk.handle := by cases title <;> rfl

@[simp] theorem TextChunk.titled_source (chunk : TextChunk) (title : Option Text) :
    (chunk.titled title).source = chunk.source := by cases title <;> rfl

@[simp] theorem TextChunk.titled_columnOrPath (chunk : TextChunk) (title : Option Text) :
    (chunk.titled title).columnOrPath = chunk.columnOrPath := by cases title <;> rfl

@[simp] theorem TextChunk.titled_chunkOrdinal (chunk : TextChunk) (title : Option Text) :
    (chunk.titled title).chunkOrdinal = chunk.chunkOrdinal := by cases title <;> rfl

@[simp] theorem TextChunk.titled_text (chunk : TextChunk) (title : Option Text) :
    (chunk.titled title).text = chunk.text := by cases title <;> rfl

section Rows

variable {source : TextSourceRef} {columns : List (Nat × Text)} {idColumn : Option Nat}
  {rightsClass : RightsClass}

theorem rowChunks_eq (ordinal : UInt32) (row : Row) :
    rowChunks source columns idColumn rightsClass ordinal row =
      columns.filterMap fun e ↦ (cellText row e.1).map fun text ↦
        (TextChunk.new source e.2 ordinal text rightsClass).titled
          ((idColumn.bind (cell row)).filter (!isBlank ·)) := by
  rw [rowChunks]
  congr 1
  funext ⟨index, name⟩
  dsimp only [cellText]
  cases cell row index with
  | none => rfl
  | some text =>
      by_cases hblank : isBlank text = true
      · simp [hblank]
      · simp [hblank]

/-- A row has a chunk for each of its cells that is not blank. -/
theorem mem_rowChunks {ordinal : UInt32} {row : Row} {chunk : TextChunk} :
    chunk ∈ rowChunks source columns idColumn rightsClass ordinal row ↔
      ∃ e ∈ columns, ∃ text, cellText row e.1 = some text ∧
        (TextChunk.new source e.2 ordinal text rightsClass).titled
          ((idColumn.bind (cell row)).filter (!isBlank ·)) = chunk := by
  simp only [rowChunks_eq, List.mem_filterMap, Option.map_eq_some_iff]

theorem mem_chunksFrom {rows : List Row} {chunk : TextChunk} : ∀ {k : Nat},
    chunk ∈ chunksFrom source columns idColumn rightsClass k rows ↔
      ∃ r row, rows[r]? = some row ∧ k + r < 2 ^ 32 ∧
        chunk ∈ rowChunks source columns idColumn rightsClass (UInt32.ofNat (k + r)) row := by
  induction rows with
  | nil => simp [chunksFrom]
  | cons row rows ih =>
      intro k
      rw [chunksFrom]
      split_ifs with hk
      · rw [List.mem_append, ih]
        constructor
        · rintro (h | ⟨r, row', hrow, hlt, h⟩)
          · exact ⟨0, row, rfl, hk, h⟩
          · rw [Nat.add_assoc, Nat.add_comm 1] at hlt h
            exact ⟨r + 1, row', hrow, hlt, h⟩
        · rintro ⟨_ | r, row', hrow, hlt, h⟩
          · cases hrow
            exact .inl h
          · rw [Nat.add_comm r, ← Nat.add_assoc] at hlt h
            exact .inr ⟨r, row', hrow, hlt, h⟩
      · simp only [List.not_mem_nil, false_iff]
        rintro ⟨r, row', -, hlt, -⟩
        omega

/-- Chunks stand in the order of the rows, in a row with distinct columns. -/
def Before (chunk chunk' : TextChunk) : Prop :=
  chunk.chunkOrdinal.toNat < chunk'.chunkOrdinal.toNat ∨
    chunk.chunkOrdinal = chunk'.chunkOrdinal ∧ chunk.columnOrPath ≠ chunk'.columnOrPath

theorem ordinal_of_mem_rowChunks {ordinal : UInt32} {row : Row} {chunk : TextChunk}
    (h : chunk ∈ rowChunks source columns idColumn rightsClass ordinal row) :
    chunk.chunkOrdinal = ordinal := by
  obtain ⟨e, -, text, -, rfl⟩ := mem_rowChunks.mp h
  rw [TextChunk.titled_chunkOrdinal]
  rfl

theorem pairwise_rowChunks (hcolumns : (columns.map Prod.snd).Nodup) (ordinal : UInt32) (row : Row) :
    (rowChunks source columns idColumn rightsClass ordinal row).Pairwise Before := by
  rw [rowChunks_eq, List.pairwise_filterMap]
  refine (List.pairwise_map.mp hcolumns).imp fun {e e'} hne chunk hchunk chunk' hchunk' ↦ ?_
  obtain ⟨text, -, rfl⟩ := Option.map_eq_some_iff.mp hchunk
  obtain ⟨text', -, rfl⟩ := Option.map_eq_some_iff.mp hchunk'
  right
  rw [TextChunk.titled_chunkOrdinal, TextChunk.titled_chunkOrdinal,
    TextChunk.titled_columnOrPath, TextChunk.titled_columnOrPath]
  exact ⟨rfl, hne⟩

theorem pairwise_chunksFrom (hcolumns : (columns.map Prod.snd).Nodup) (rows : List Row) :
    ∀ k, (chunksFrom source columns idColumn rightsClass k rows).Pairwise Before := by
  induction rows with
  | nil => exact fun _ ↦ .nil
  | cons row rows ih =>
      intro k
      rw [chunksFrom]
      split_ifs with hk
      · refine List.pairwise_append.mpr ⟨pairwise_rowChunks hcolumns _ row, ih (k + 1), ?_⟩
        intro chunk hchunk chunk' hchunk'
        obtain ⟨r, row', -, hlt, hchunk'⟩ := mem_chunksFrom.mp hchunk'
        left
        rw [ordinal_of_mem_rowChunks hchunk, ordinal_of_mem_rowChunks hchunk',
          UInt32.toNat_ofNat_of_lt' hk, UInt32.toNat_ofNat_of_lt' hlt]
        omega
      · exact .nil

end Rows

end FrankenSnowflake.TextIndexing
