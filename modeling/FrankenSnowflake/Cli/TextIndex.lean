import Mathlib.Data.Char
import Mathlib.Data.List.Lex
import FrankenSnowflake.Foundation.Ascii
import FrankenSnowflake.Foundation.Lines
import FrankenSnowflake.Foundation.SortedMap
import FrankenSnowflake.TextIndexing.Chunks

/-!
# Text indexes

The columns that `text index` takes its documents from, the documents as a file
of lines, and the map from handles to documents that `text search` reads.
-/

namespace FrankenSnowflake.TextIndex

open Foundation JsonRead TextIndexing

/-! ## The columns -/

structure QueryRows where
  columns : List Text
  rows : List Row
  statementHandle : Text

/-- The first column of a name, without case. -/
def find (columns : List Text) (wanted : Text) : Option Nat :=
  columns.findIdx? fun column ↦ Ascii.lower column = Ascii.lower wanted

structure Selection where
  unknown : List Text
  textColumns : List (Nat × Text)

/-- What a name adds to a selection. -/
def Selection.add (columns : List Text) (s : Selection) (wanted : Text) : Selection :=
  match find columns wanted with
  | some index =>
      if s.textColumns.any (·.1 = index) then s
      else { s with textColumns := s.textColumns ++ [(index, columns.getD index [])] }
  | none => { s with unknown := s.unknown ++ [wanted] }

def select (columns wanted : List Text) : Selection :=
  wanted.foldl (Selection.add columns) ⟨[], []⟩

/-- The source of the chunks of a statement. -/
def querySource (receipt statementHandle : Text) : TextSourceRef :=
  .queryResult receipt (some statementHandle) (some statementHandle) none none

/-- The chunks of the named columns. -/
def chunksOf (q : QueryRows) (wanted : List Text) (idColumn : Option Nat) (receipt : Text) :
    List TextChunk :=
  chunksFromRows (querySource receipt q.statementHandle) (select q.columns wanted).textColumns
    idColumn .restricted q.rows

inductive Refusal where
  | usage (message : Text)
  | cacheError (message : Text)
deriving DecidableEq

def joinWith (separator : Text) : List Text → Text := List.intercalate separator

def unknownMessage (unknown columns : List Text) : Text :=
  "the result has no column ".toList ++ (joinWith ", ".toList (unknown.map fun name ↦
    '\x60' :: (name ++ ['\x60'])) ++ ("; it has ".toList ++ joinWith ", ".toList columns))

/-- `text index` on the rows of a statement. -/
def textIndex (wanted : List Text) (idColumn : Option Text) (q : QueryRows)
    (receipt : Option Text) : Except Refusal (List TextChunk) :=
  if wanted = [] then
    .error (.usage
      "Name the text to index with --column <COL> (repeat it for several columns).".toList)
  else
    let selection := select q.columns wanted
    let idIndex := idColumn.bind (find q.columns)
    let unknown := selection.unknown ++ (if idIndex = none then idColumn.toList else [])
    if unknown ≠ [] then .error (.usage (unknownMessage unknown q.columns))
    else
      match receipt with
      | none => .error (.cacheError
          "the receipt was not recorded, and every indexed document must name one".toList)
      | some receipt => .ok (chunksOf q wanted idIndex receipt)

/-! ## The documents -/

/-- `serde_json::to_string` of a chunk. -/
def toLine (chunk : TextChunk) : Text := chunk.toDoc.print

/-- `documents.jsonl`. -/
def documents (chunks : List TextChunk) : Text := unlines (chunks.map toLine)

/-- What `build_index` publishes: the documents, if the engine takes each of them. -/
def buildIndex (chunks : List TextChunk) : Except TextIndexError Text := do
  chunks.forM TextChunk.validate
  return documents chunks

/-- `serde_json::from_str` of a line. -/
def parseLine (line : Text) : Option TextChunk := do TextChunk.fromDoc (← JsonRead.read line)

/-- The documents by their handles. -/
def readDocuments (text : Text) : Option (SortedMap Text TextChunk) := do
  let chunks ← ((lines text).filter (!isBlank ·)).mapM parseLine
  return .ofList (chunks.map fun chunk ↦ (chunk.handle, chunk))

/-- A hit of the engine, with its scores. -/
structure ScoredResult (σ : Type) where
  docId : Text
  scores : σ

structure TextHit (σ : Type) where
  rank : Nat
  scores : σ
  handle : Text
  row : UInt32
  column : Text
  id : Option Text
  snippet : Text
  rightsClass : RightsClass

/-- The hits that are shown, for the engine's results. -/
def hits {σ : Type} (snippet : Text → Text) (documents : SortedMap Text TextChunk)
    (results : List (ScoredResult σ)) : List (TextHit σ) :=
  (results.filterMap fun result ↦
    (documents.get? result.docId).map fun chunk ↦ (result, chunk)).zipIdx.map fun found ↦
      let chunk := found.1.2
      { rank := found.2
        scores := found.1.1.scores
        handle := chunk.handle
        row := chunk.chunkOrdinal
        column := chunk.columnOrPath
        id := chunk.title
        snippet := snippet chunk.text
        rightsClass := chunk.rightsClass }

/-! ## What is selected -/

section Columns

variable {columns wanted : List Text}

theorem find_eq_some {w : Text} {index : Nat} (h : find columns w = some index) :
    ∃ column, columns[index]? = some column ∧ Ascii.lower column = Ascii.lower w := by
  obtain ⟨hlt, hcolumn, -⟩ := List.findIdx?_eq_some_iff_getElem.mp h
  exact ⟨columns[index], List.getElem?_eq_getElem hlt, of_decide_eq_true hcolumn⟩

theorem find_isSome {w : Text} (h : w ∈ columns) : (find columns w).isSome := by
  rw [find, List.findIdx?_isSome, List.any_eq_true]
  exact ⟨w, h, decide_eq_true rfl⟩

/-- The column that is found for a name. -/
def found (columns : List Text) (w : Text) : Option Text :=
  (find columns w).bind (columns[·]?)

theorem found_eq_some {w column : Text} :
    found columns w = some column ↔
      ∃ index, find columns w = some index ∧ columns[index]? = some column := Option.bind_eq_some_iff

/-- What is found for a name is found for itself. -/
theorem found_found {w column : Text} (h : found columns w = some column) :
    found columns column = some column := by
  obtain ⟨index, hfind, hcolumn⟩ := found_eq_some.mp h
  obtain ⟨column', hcolumn', hlower⟩ := find_eq_some hfind
  cases hcolumn.symm.trans hcolumn'
  have hsame : find columns column = find columns w := by rw [find, find, hlower]
  exact found_eq_some.mpr ⟨index, hsame.trans hfind, hcolumn⟩

theorem exists_found {w : Text} (h : w ∈ columns) : ∃ column, found columns w = some column := by
  obtain ⟨index, hfind⟩ := Option.isSome_iff_exists.mp (find_isSome h)
  obtain ⟨column, hcolumn, -⟩ := find_eq_some hfind
  exact ⟨column, found_eq_some.mpr ⟨index, hfind, hcolumn⟩⟩

theorem select_append (w : Text) :
    select columns (wanted ++ [w]) = (select columns wanted).add columns w :=
  List.foldl_concat ..

/-- The selected columns: those found for a name, with their own names. -/
theorem mem_textColumns : ∀ {e : Nat × Text},
    e ∈ (select columns wanted).textColumns ↔
      ∃ w ∈ wanted, find columns w = some e.1 ∧ columns[e.1]? = some e.2 := by
  induction wanted using List.reverseRecOn with
  | nil => simp [select]
  | append_singleton wanted w ih =>
      intro e
      have hiff : e ∈ ((select columns wanted).add columns w).textColumns ↔
          e ∈ (select columns wanted).textColumns ∨
            (find columns w = some e.1 ∧ columns[e.1]? = some e.2) := by
        rw [Selection.add]
        cases hfind : find columns w with
        | none => simp
        | some index =>
            obtain ⟨column, hcolumn, -⟩ := find_eq_some hfind
            dsimp only
            split_ifs with hseen
            · obtain ⟨e', he', hindex⟩ := List.any_eq_true.mp hseen
              refine ⟨.inl, fun h ↦ h.elim id ?_⟩
              rintro ⟨hfound, hname⟩
              cases hfound
              obtain ⟨-, -, -, hname'⟩ := ih.mp he'
              rw [of_decide_eq_true hindex] at hname'
              have heq : e' = e := Prod.ext (of_decide_eq_true hindex)
                (Option.some.inj (hname'.symm.trans hname))
              exact heq ▸ he'
            · rw [List.mem_append, List.mem_singleton, List.getD_eq_getElem?_getD, hcolumn,
                Option.getD_some]
              refine or_congr_right ?_
              constructor
              · rintro rfl
                exact ⟨rfl, hcolumn⟩
              · rintro ⟨hindex, hname⟩
                cases hindex
                exact Prod.ext rfl (Option.some.inj (hname.symm.trans hcolumn))
      rw [select_append, hiff, ih]
      simp only [List.mem_append, List.mem_singleton, or_and_right, exists_or, exists_eq_left]

theorem nodup_textColumns : ((select columns wanted).textColumns.map Prod.fst).Nodup := by
  induction wanted using List.reverseRecOn with
  | nil => exact .nil
  | append_singleton wanted w ih =>
      rw [select_append, Selection.add]
      cases hfind : find columns w with
      | none => exact ih
      | some index =>
          dsimp only
          split_ifs with hseen
          · exact ih
          · rw [List.map_append, List.nodup_append]
            refine ⟨ih, List.nodup_singleton _, ?_⟩
            rintro _ hmem _ hindex rfl
            rw [List.map_singleton, List.mem_singleton] at hindex
            obtain ⟨e, he, rfl⟩ := List.mem_map.mp hmem
            exact hseen (List.any_eq_true.mpr ⟨e, he, decide_eq_true hindex⟩)

end Columns

/-! ## The cells -/

/-- The text of the column of a name in a row, if it is not blank. -/
def columnText (q : QueryRows) (column : Text) (r : Nat) : Option Text := do
  cellText (← q.rows[r]?) (← q.columns.findIdx? (· = column))

theorem findIdx?_of_nodup {columns : List Text} (h : columns.Nodup) {index : Nat} {column : Text}
    (hcolumn : columns[index]? = some column) : columns.findIdx? (· = column) = some index := by
  obtain ⟨hlt, rfl⟩ := List.getElem?_eq_some_iff.mp hcolumn
  refine List.findIdx?_eq_some_iff_getElem.mpr ⟨hlt, decide_eq_true rfl, fun j hj ↦ ?_⟩
  intro heq
  have hne := List.nodup_iff_getElem?_ne_getElem?.mp h j index hj hlt
  exact hne (by
    rw [List.getElem?_eq_getElem (Nat.lt_trans hj hlt), List.getElem?_eq_getElem hlt,
      of_decide_eq_true heq])

theorem columnText_eq_some {q : QueryRows} (h : q.columns.Nodup) {index : Nat} {column text : Text}
    (hcolumn : q.columns[index]? = some column) {r : Nat} :
    columnText q column r = some text ↔ ∃ row, q.rows[r]? = some row ∧ cellText row index = some text := by
  rw [columnText, findIdx?_of_nodup h hcolumn]
  exact Option.bind_eq_some_iff

section Chunks

variable {q : QueryRows} {wanted : List Text} {idColumn : Option Nat} {receipt : Text}

/-- The chunks are the cells of the columns that are found. -/
theorem exists_chunk_iff (hcolumns : q.columns.Nodup) (hrows : q.rows.length < 2 ^ 32)
    {r : Nat} {column text : Text} :
    (∃ chunk ∈ chunksOf q wanted idColumn receipt, chunk.chunkOrdinal.toNat = r ∧
        chunk.columnOrPath = column ∧ chunk.text = text) ↔
      (∃ w ∈ wanted, found q.columns w = some column) ∧ columnText q column r = some text := by
  constructor
  · rintro ⟨chunk, hchunk, rfl, rfl, rfl⟩
    obtain ⟨r, row, hrow, hlt, hchunk⟩ := mem_chunksFrom.mp hchunk
    obtain ⟨⟨index, column⟩, he, text, htext, rfl⟩ := mem_rowChunks.mp hchunk
    obtain ⟨w, hw, hfind, hcolumn⟩ := mem_textColumns.mp he
    rw [TextChunk.titled_chunkOrdinal, TextChunk.titled_columnOrPath, TextChunk.titled_text]
    refine ⟨⟨w, hw, found_eq_some.mpr ⟨index, hfind, hcolumn⟩⟩, ?_⟩
    refine (columnText_eq_some hcolumns hcolumn).mpr ⟨row, ?_, htext⟩
    show q.rows[(UInt32.ofNat (0 + r)).toNat]? = some row
    rw [UInt32.toNat_ofNat_of_lt' hlt, Nat.zero_add]
    exact hrow
  · rintro ⟨⟨w, hw, hfound⟩, htext⟩
    obtain ⟨index, hfind, hcolumn⟩ := found_eq_some.mp hfound
    obtain ⟨row, hrow, hcell⟩ := (columnText_eq_some hcolumns hcolumn).mp htext
    have hlt : 0 + r < 2 ^ 32 := by
      have hr := (List.getElem?_eq_some_iff.mp hrow).1
      omega
    have he : (index, column) ∈ (select q.columns wanted).textColumns :=
      mem_textColumns.mpr ⟨w, hw, hfind, hcolumn⟩
    refine ⟨_, mem_chunksFrom.mpr ⟨r, row, hrow, hlt,
      mem_rowChunks.mpr ⟨(index, column), he, text, hcell, rfl⟩⟩, ?_, ?_, ?_⟩
    · rw [TextChunk.titled_chunkOrdinal]
      show (UInt32.ofNat (0 + r)).toNat = r
      rw [UInt32.toNat_ofNat_of_lt' hlt, Nat.zero_add]
    · rw [TextChunk.titled_columnOrPath]
      rfl
    · rw [TextChunk.titled_text]
      rfl

theorem nodup_names (hcolumns : q.columns.Nodup) :
    ((select q.columns wanted).textColumns.map Prod.snd).Nodup := by
  refine List.pairwise_map.mpr (List.Pairwise.imp_of_mem ?_
    (List.pairwise_map.mp nodup_textColumns))
  intro e e' he he' hne hname
  obtain ⟨-, -, -, hcolumn⟩ := mem_textColumns.mp he
  obtain ⟨-, -, -, hcolumn'⟩ := mem_textColumns.mp he'
  have hindex := findIdx?_of_nodup hcolumns hcolumn
  have hindex' := findIdx?_of_nodup hcolumns hcolumn'
  rw [hname, hindex'] at hindex
  exact hne (Option.some.inj hindex).symm

theorem pairwise_chunksOf (hcolumns : q.columns.Nodup) :
    (chunksOf q wanted idColumn receipt).Pairwise Before :=
  pairwise_chunksFrom (nodup_names hcolumns) q.rows 0

theorem handle_of_mem {chunk : TextChunk} (h : chunk ∈ chunksOf q wanted idColumn receipt) :
    chunk.handle = fromSource (querySource receipt q.statementHandle) chunk.columnOrPath
      chunk.chunkOrdinal := by
  obtain ⟨r, row, -, -, hchunk⟩ := mem_chunksFrom.mp h
  obtain ⟨e, -, text, -, rfl⟩ := mem_rowChunks.mp hchunk
  rw [TextChunk.titled_handle, TextChunk.titled_columnOrPath, TextChunk.titled_chunkOrdinal]
  rfl

theorem nodup_handles (hcolumns : q.columns.Nodup) :
    ((chunksOf q wanted idColumn receipt).map TextChunk.handle).Nodup := by
  refine List.pairwise_map.mpr (List.Pairwise.imp_of_mem ?_ (pairwise_chunksOf hcolumns))
  intro chunk chunk' hchunk hchunk' hbefore hhandle
  rw [handle_of_mem hchunk, handle_of_mem hchunk'] at hhandle
  obtain ⟨-, -, hcolumn, hordinal⟩ := fromSource_inj hhandle
  rcases hbefore with hlt | ⟨-, hne⟩
  · exact Nat.ne_of_lt hlt (congrArg UInt32.toNat hordinal)
  · exact hne hcolumn

end Chunks

/-- A refusal leaves no chunks; otherwise they are those of the columns. -/
theorem textIndex_eq_ok {idName : Option Text} (hne : wanted ≠ [])
    (hwanted : ∀ w ∈ wanted, w ∈ q.columns) (hid : ∀ w ∈ idName, w ∈ q.columns) :
    textIndex wanted idName q (some receipt) =
      .ok (chunksOf q wanted (idName.bind (find q.columns)) receipt) := by
  have hunknown : (select q.columns wanted).unknown = [] := by
    clear hne
    induction wanted using List.reverseRecOn with
    | nil => rfl
    | append_singleton wanted w ih =>
        obtain ⟨hwanted, hw⟩ := List.forall_mem_append.mp hwanted
        obtain ⟨index, hfind⟩ :=
          Option.isSome_iff_exists.mp (find_isSome (hw w List.mem_cons_self))
        rw [select_append, Selection.add, hfind]
        dsimp only
        split_ifs with hseen
        · exact ih hwanted
        · exact ih hwanted
  have hidIndex : (if idName.bind (find q.columns) = none then idName.toList else []) = [] := by
    cases idName with
    | none => rfl
    | some w =>
        rw [Option.bind_some, if_neg (Option.isSome_iff_ne_none.mp (find_isSome (hid w rfl)))]
  rw [textIndex, if_neg hne]
  dsimp only
  rw [hunknown, hidIndex, if_neg (by simp)]

theorem validate_of_mem {chunk : TextChunk} (h : chunk ∈ chunksOf q wanted idColumn receipt) :
    chunk.validate = .ok () ↔ isBlank receipt = false ∧ isBlank chunk.columnOrPath = false := by
  obtain ⟨r, row, -, -, hchunk⟩ := mem_chunksFrom.mp h
  obtain ⟨e, -, text, htext, rfl⟩ := mem_rowChunks.mp hchunk
  have hblank : isBlank text = false := by
    rw [← Bool.not_eq_true']
    exact (Option.filter_eq_some_iff.mp htext).2
  rw [TextChunk.validate, TextChunk.titled_columnOrPath, TextChunk.titled_text,
    TextChunk.titled_source]
  simp only [TextChunk.new, querySource, TextSourceRef.validate, hblank]
  cases isBlank receipt with
  | true => exact iff_of_false nofun nofun
  | false =>
      cases isBlank e.2 with
      | true => exact iff_of_false nofun nofun
      | false => exact iff_of_true rfl ⟨rfl, rfl⟩

/-- A handle says its receipt, column and row. -/
theorem querySource_handle_injective (statementHandle : Text) :
    Function.Injective fun k : Text × Text × UInt32 ↦
      fromSource (querySource k.1 statementHandle) k.2.1 k.2.2 := by
  rintro ⟨receipt, column, ordinal⟩ ⟨receipt', column', ordinal'⟩ h
  obtain ⟨-, hid, hcolumn, hordinal⟩ := fromSource_inj h
  have hreceipt := escapeComponent_injective hid
  exact Prod.ext (List.append_cancel_left hreceipt) (Prod.ext hcolumn hordinal)

/-! ## The documents are read back -/

theorem parseLine_toLine (chunk : TextChunk) : parseLine (toLine chunk) = some chunk := by
  rw [parseLine, toLine, (Doc.reads_print chunk.exact_toDoc).read]
  exact chunk.fromDoc_toDoc

theorem newline_notMem_toLine (chunk : TextChunk) : '\n' ∉ toLine chunk := fun hc ↦
  absurd (Doc.plain_print chunk.exact_toDoc _ hc) (by decide)

/-- A line stands between braces. -/
theorem toLine_eq (chunk : TextChunk) : ∃ body, toLine chunk = '\x7b' :: (body ++ ['\x7d']) :=
  ⟨_, rfl⟩

theorem chomp_toLine (chunk : TextChunk) : chomp (toLine chunk) = toLine chunk := by
  obtain ⟨body, hbody⟩ := toLine_eq chunk
  rw [hbody, chomp, ← List.cons_append, List.getLast?_concat]
  exact if_neg (by decide)

theorem isBlank_toLine (chunk : TextChunk) : isBlank (toLine chunk) = false := by
  obtain ⟨body, hbody⟩ := toLine_eq chunk
  rw [hbody, isBlank, decide_eq_false_iff_not, Unicode.trim, Unicode.trimStart_cons (by decide)]
  intro hnil
  have htrim := Unicode.trimEnd_append_cons (show Unicode.isWhitespace '\x7b' = false by decide) []
    (body ++ ['\x7d'])
  rw [List.nil_append] at htrim
  rw [htrim] at hnil
  cases hnil

theorem mapM_parseLine (chunks : List TextChunk) :
    (chunks.map toLine).mapM parseLine = some chunks := by
  induction chunks with
  | nil => rfl
  | cons chunk chunks ih =>
      rw [List.map_cons, List.mapM_cons, parseLine_toLine, ih]
      rfl

theorem readDocuments_documents (chunks : List TextChunk) :
    readDocuments (documents chunks) =
      some (.ofList (chunks.map fun chunk ↦ (chunk.handle, chunk))) := by
  have hlines : lines (documents chunks) = chunks.map toLine := by
    refine lines_unlines_of_chomp ?_ ?_
    · exact List.forall_mem_map.mpr fun chunk _ ↦ newline_notMem_toLine chunk
    · exact List.forall_mem_map.mpr fun chunk _ ↦ chomp_toLine chunk
  have hfilter : (chunks.map toLine).filter (!isBlank ·) = chunks.map toLine := by
    refine List.filter_eq_self.mpr (List.forall_mem_map.mpr fun chunk _ ↦ ?_)
    rw [isBlank_toLine]
    rfl
  rw [readDocuments, hlines, hfilter, mapM_parseLine]
  rfl

/-! ## One document for each cell -/

/-- Chunks that are the cells of the named columns: one for each that is not blank. -/
structure PerCell (q : QueryRows) (wanted : List Text) (chunks : List TextChunk) : Prop where
  cells : ∀ r column text, (∃ chunk ∈ chunks, chunk.chunkOrdinal.toNat = r ∧
      chunk.columnOrPath = column ∧ chunk.text = text) ↔
    column ∈ wanted ∧ columnText q column r = some text
  ordered : chunks.Pairwise Before

/-- A map of documents that leads from a handle to its chunk, and hits to their cells. -/
structure Leads (chunks : List TextChunk) (documents : SortedMap Text TextChunk) : Prop where
  get? : ∀ handle chunk, documents.get? handle = some chunk ↔ chunk ∈ chunks ∧ chunk.handle = handle
  hits : ∀ (σ : Type) (snippet : Text → Text) (results : List (ScoredResult σ)),
    ∀ hit ∈ hits snippet documents results, ∃ result ∈ results, ∃ chunk ∈ chunks,
      chunk.handle = result.docId ∧ hit.handle = chunk.handle ∧ hit.row = chunk.chunkOrdinal ∧
        hit.column = chunk.columnOrPath ∧ hit.snippet = snippet chunk.text

/-- What an index of a result holds. -/
structure Indexed (q : QueryRows) (wanted : List Text) (chunks : List TextChunk) : Prop where
  perCell : PerCell q wanted chunks
  handles : (chunks.map TextChunk.handle).Nodup
  injective : Function.Injective fun k : Text × Text × UInt32 ↦
    fromSource (querySource k.1 q.statementHandle) k.2.1 k.2.2
  documents : ∃ m, readDocuments (TextIndex.documents chunks) = some m ∧ Leads chunks m

theorem hits_of_get? {chunks : List TextChunk} {m : SortedMap Text TextChunk}
    (h : ∀ handle chunk, m.get? handle = some chunk ↔ chunk ∈ chunks ∧ chunk.handle = handle) :
    Leads chunks m where
  get? := h
  hits σ snippet results hit hhit := by
    obtain ⟨⟨⟨result, chunk⟩, rank⟩, hfound, rfl⟩ := List.mem_map.mp hhit
    obtain ⟨result', hresult, hget⟩ := List.mem_filterMap.mp (List.fst_mem_of_mem_zipIdx hfound)
    obtain ⟨chunk', hchunk, heq⟩ := Option.map_eq_some_iff.mp hget
    obtain ⟨rfl, rfl⟩ := Prod.mk.inj heq
    obtain ⟨hmem, hhandle⟩ := (h _ _).mp hchunk
    exact ⟨result', hresult, chunk', hmem, hhandle, rfl, rfl, rfl, rfl⟩

theorem leads_ofList {chunks : List TextChunk} (h : (chunks.map TextChunk.handle).Nodup) :
    Leads chunks (.ofList (chunks.map fun chunk ↦ (chunk.handle, chunk))) := by
  refine hits_of_get? fun handle chunk ↦ ?_
  have hkeys : ((chunks.map fun chunk ↦ (chunk.handle, chunk)).map Prod.fst).Nodup := by
    rw [List.map_map]
    exact h
  rw [SortedMap.get?_ofList_eq_some hkeys, List.mem_map]
  constructor
  · rintro ⟨chunk', hmem, heq⟩
    obtain ⟨rfl, rfl⟩ := Prod.mk.inj heq
    exact ⟨hmem, rfl⟩
  · rintro ⟨hmem, rfl⟩
    exact ⟨chunk, hmem, rfl⟩

/-- A column without a text that is not blank. -/
def BlankColumn (q : QueryRows) (column : Text) : Prop := ∀ r, columnText q column r = none

/-- A name that leads to its column, or to one that makes no difference. -/
def LeadsTo (q : QueryRows) (wanted : List Text) (w : Text) : Prop :=
  ∀ column, found q.columns w = some column →
    column = w ∨ BlankColumn q w ∧ (column ∈ wanted ∨ BlankColumn q column)

theorem exists_text {q : QueryRows} {column : Text} (h : ¬ BlankColumn q column) :
    ∃ r text, columnText q column r = some text := by
  obtain ⟨r, hr⟩ := not_forall.mp h
  exact ⟨r, Option.ne_none_iff_exists'.mp hr⟩

/-- A result is indexed by its cells exactly when each name leads to its column. -/
theorem chunksOf_indexed_iff {q : QueryRows} (hcolumns : q.columns.Nodup)
    (hrows : q.rows.length < 2 ^ 32) {wanted : List Text} (hwanted : ∀ w ∈ wanted, w ∈ q.columns)
    (idColumn : Option Nat) (receipt : Text) :
    Indexed q wanted (chunksOf q wanted idColumn receipt) ↔ ∀ w ∈ wanted, LeadsTo q wanted w := by
  constructor
  · intro h w hw column hfound
    have hcells := h.perCell.cells
    simp only [exists_chunk_iff hcolumns hrows] at hcells
    by_cases heq : column = w
    · exact .inl heq
    refine .inr ⟨?_, ?_⟩
    · by_contra hblank
      obtain ⟨r, text, htext⟩ := exists_text hblank
      obtain ⟨⟨w', -, hfound'⟩, -⟩ := (hcells r w text).mpr ⟨hw, htext⟩
      exact heq (Option.some.inj (hfound.symm.trans (found_found hfound')))
    · by_cases hblank : BlankColumn q column
      · exact .inr hblank
      · obtain ⟨r, text, htext⟩ := exists_text hblank
        exact .inl ((hcells r column text).mp ⟨⟨w, hw, hfound⟩, htext⟩).1
  · intro h
    refine ⟨⟨fun r column text ↦ ?_, pairwise_chunksOf hcolumns⟩, nodup_handles hcolumns,
      querySource_handle_injective q.statementHandle,
      ⟨_, readDocuments_documents _, leads_ofList (nodup_handles hcolumns)⟩⟩
    rw [exists_chunk_iff hcolumns hrows]
    refine and_congr_left fun htext ↦ ?_
    have hnonblank : ¬ BlankColumn q column := fun hblank ↦ nomatch (hblank r).symm.trans htext
    constructor
    · rintro ⟨w, hw, hfound⟩
      rcases h w hw column hfound with rfl | ⟨-, hcolumn | hblank⟩
      · exact hw
      · exact hcolumn
      · exact absurd hblank hnonblank
    · intro hcolumn
      obtain ⟨column', hfound⟩ := exists_found (hwanted column hcolumn)
      rcases h column hcolumn column' hfound with rfl | ⟨hblank, -⟩
      · exact ⟨column', hcolumn, hfound⟩
      · exact absurd hblank hnonblank

/-- A ticket with a text, one with a blank text. -/
def tickets : QueryRows where
  columns := ["ID".toList, "BODY".toList]
  rows := [[some ['1'], some ['h', 'i']], [some ['2'], some [' ']]]
  statementHandle := ['s']

theorem indexed_tickets :
    Indexed tickets ["BODY".toList] (chunksOf tickets ["BODY".toList] (some 0) ['r']) :=
  (chunksOf_indexed_iff (by decide) (by decide) (by decide) (some 0) ['r']).mpr fun w hw column h ↦ by
    rw [List.mem_singleton.mp hw] at h ⊢
    exact .inl (Option.some.inj (h.symm.trans (by decide)))

/-- Two columns that differ in case. -/
def twins : QueryRows where
  columns := [['A'], ['a']]
  rows := [[some ['x'], some ['y']]]
  statementHandle := ['s']

/-- The named column is not the one that is indexed. -/
theorem not_indexed_twins : twins.columns.Nodup ∧ (∀ w ∈ [['a']], w ∈ twins.columns) ∧
    (chunksOf twins [['a']] none ['r']).map (fun chunk ↦ (chunk.columnOrPath, chunk.text)) =
      [(['A'], ['x'])] ∧
    ¬ Indexed twins [['a']] (chunksOf twins [['a']] none ['r']) := by
  refine ⟨by decide, by decide, by decide, fun h ↦ ?_⟩
  obtain ⟨chunk, hchunk, -, hcolumn, -⟩ :=
    (h.perCell.cells 0 ['a'] ['y']).mpr ⟨List.mem_cons_self, by decide⟩
  have hall : ∀ chunk ∈ chunksOf twins [['a']] none ['r'], chunk.columnOrPath = ['A'] := by decide
  exact absurd ((hall chunk hchunk).symm.trans hcolumn) (by decide)

end FrankenSnowflake.TextIndex
