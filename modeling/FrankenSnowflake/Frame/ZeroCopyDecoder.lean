import FrankenSnowflake.Core.Jsonv2Extract
import FrankenSnowflake.Core.Jsonv2Visitor

/-!
# The row scanner of the frame crate

The frame crate has its own copy of the scanner.  It words its errors
differently, and its extraction takes the `data` array of an envelope without a
look at what follows.  Up to that the three scanners agree: `scan_rows_with`,
`decode_partition_rows` and the copy's `scan_rows`.
-/

namespace FrankenSnowflake.ZeroCopyDecoder

open Foundation Foundation.Json Jsonv2Scanner

inductive FrameError where
  | rowWidthMismatch (partitionIndex rowIndex expected actual : Nat)
  | rowCountOverflow
  | decode (column snowflakeType reason : String)
  | timestampOutOfRange (column : String)
  | columnBuild (column message : String)
deriving DecidableEq, Repr

def frameErrors : ScanErrors FrameError where
  decode := .decode "" ""
  rowWidthMismatch := .rowWidthMismatch
  rowCountOverflow := .rowCountOverflow

/-- The frame's `extract_jsonv2_data_array`: anything may follow the array. -/
def extractJsonv2DataArray (bytes : List UInt8) : Scan FrameError (List UInt8) :=
  extractDataArray frameErrors (fun _ ↦ none) bytes

/-- `scan_rows`: the number of rows and the visitor's final state. -/
def scanRows {σ : Type} (visit : Visitor FrameError σ) (partition expected : Nat)
    (bytes : List UInt8) (st : σ) : Scan FrameError (Nat × σ) := do
  let bytes ← extractJsonv2DataArray bytes
  scanArray frameErrors visit partition expected bytes st

/-! ## Extraction -/

/-- The frame takes what the core takes, and the arrays of envelopes that the
core finds not closed. -/
theorem extractJsonv2DataArray_eq_ok {bytes array : List UInt8} :
    extractJsonv2DataArray bytes = .ok array ↔
      Jsonv2Scanner.extractJsonv2DataArray bytes = .ok array ∨
        ∃ s after, skipWs bytes = 0x7b :: s ∧
          scanEnvelope coreErrors (s.length + 2) 1 s = .ok (array, after) ∧
          closedByObject after ≠ none := by
  rw [extractJsonv2DataArray, Jsonv2Scanner.extractJsonv2DataArray,
    extractDataArray_sameOk frameErrors coreErrors, extractDataArray_eq_ok,
    show ScanErrors.mapped id = coreErrors from rfl, extractDataArray_eq_ok]
  constructor
  · rintro (hbare | ⟨s, after, hs, hscan, -⟩)
    · exact Or.inl (Or.inl hbare)
    · by_cases hclosed : closedByObject after = none
      · exact Or.inl (Or.inr ⟨s, after, hs, hscan, hclosed⟩)
      · exact Or.inr ⟨s, after, hs, hscan, hclosed⟩
  · rintro ((hbare | ⟨s, after, hs, hscan, -⟩) | ⟨s, after, hs, hscan, -⟩)
    · exact Or.inl hbare
    · exact Or.inr ⟨s, after, hs, hscan, rfl⟩
    · exact Or.inr ⟨s, after, hs, hscan, rfl⟩

/-- The core refuses an envelope that is not closed after its array. -/
theorem not_extracted_of_unclosed {bytes s array after : List UInt8} (hs : skipWs bytes = 0x7b :: s)
    (hscan : scanEnvelope coreErrors (s.length + 2) 1 s = .ok (array, after))
    (hclosed : closedByObject after ≠ none) (a : List UInt8) :
    Jsonv2Scanner.extractJsonv2DataArray bytes ≠ .ok a := by
  rw [Jsonv2Scanner.extractJsonv2DataArray, show ScanErrors.mapped id = coreErrors from rfl, ne_eq,
    extractDataArray_eq_ok, hs]
  rintro (⟨rfl, h⟩ | ⟨s', after', h, hscan', hclosed'⟩)
  · cases h
  · obtain rfl := (List.cons.inj h).2
    rw [hscan] at hscan'
    obtain ⟨-, rfl⟩ := Prod.mk.inj (Except.ok.inj hscan')
    exact hclosed hclosed'

/-! ## The three scanners -/

/-- The bytes of a Rust slice, at most `isize::MAX` of them. -/
abbrev Slice := {bytes : List UInt8 // bytes.length < 2 ^ 63}

abbrev Rows := List (List (Option (List Char)))

def HasWidth (n : Nat) (rows : Rows) : Prop := ∀ cells ∈ rows, cells.length = n

/-- The visitor that keeps every cell with its row and column. -/
def record (row col : Nat) (v : Option (List Char)) (seen : List (Nat × Nat × Option (List Char))) :
    List (Nat × Nat × Option (List Char)) :=
  seen ++ [(row, col, v)]

/-- The cells of some rows, each with its row and column. -/
def positions (rows : Rows) : List (Nat × Nat × Option (List Char)) :=
  rows.zipIdx.flatMap fun (cells, row) ↦ cells.zipIdx.map fun (v, col) ↦ (row, col, v)

theorem visitCells_record (row col : Nat) (cells : List (Option (List Char)))
    (seen : List (Nat × Nat × Option (List Char))) :
    visitCells record row col cells seen =
      seen ++ (cells.zipIdx col).map fun (v, col) ↦ (row, col, v) := by
  induction cells generalizing col seen with
  | nil => simp [visitCells]
  | cons v cells ih => simp [visitCells, ih, record]

theorem visitRows_record (row : Nat) (rows : Rows) (seen : List (Nat × Nat × Option (List Char))) :
    visitRows record row rows seen = seen ++ (rows.zipIdx row).flatMap
      fun (cells, row) ↦ cells.zipIdx.map fun (v, col) ↦ (row, col, v) := by
  induction rows generalizing row seen with
  | nil => simp [visitRows]
  | cons cells rows ih => simp [visitRows, ih, visitCells_record]

section Agree

variable {ε : Type} (mapErr : Jsonv2ScanError → ε) (partition n : Nat)

def coreScan (slice : Slice) : Scan ε (Nat × List (Nat × Nat × Option (List Char))) :=
  scanRowsWith mapErr (reading record) partition n slice.1 []

def frameScan (slice : Slice) : Scan FrameError (Nat × List (Nat × Nat × Option (List Char))) :=
  scanRows (reading record) partition n slice.1 []

def coreDecode (slice : Slice) : Scan Jsonv2ScanError Rows := decodePartitionRows slice.1

/-- The three scanners succeed together and yield the same cells in the same
positions. -/
structure ScannersAgree (slice : Slice) : Prop where
  core : (∃ r, coreScan mapErr partition n slice = .ok r) ↔
    ∃ rows, coreDecode slice = .ok rows ∧ HasWidth n rows
  frame : (∃ rows, coreDecode slice = .ok rows ∧ HasWidth n rows) ↔
    ∃ r, frameScan partition n slice = .ok r
  cells : ∀ rows, coreDecode slice = .ok rows → HasWidth n rows →
    coreScan mapErr partition n slice = .ok (rows.length, positions rows) ∧
      frameScan partition n slice = .ok (rows.length, positions rows)

/-- An envelope whose object is not closed after the `data` array, which holds
rows of width `n`. -/
def UnclosedEnvelope (bytes : List UInt8) : Prop :=
  ∃ s array after rows, skipWs bytes = 0x7b :: s ∧
    scanEnvelope coreErrors (s.length + 2) 1 s = .ok (array, after) ∧
    closedByObject after ≠ none ∧ Text (RowsText lenient) array rows ∧ HasWidth n rows

theorem scanArray_eq_ok (E : ScanErrors ε) {array : List UInt8} (hlen : array.length < 2 ^ 64)
    {r : Nat × List (Nat × Nat × Option (List Char))} :
    scanArray E (reading record) partition n array [] = .ok r ↔
      ∃ rows, Text (RowsText lenient) array rows ∧ HasWidth n rows ∧
        r = (rows.length, positions rows) := by
  have hpositions : ∀ rows, visitRows record 0 rows [] = positions rows := fun rows ↦ by
    rw [visitRows_record]
    rfl
  constructor
  · intro h
    obtain ⟨rows, hrows, hwidth, rfl⟩ := (scanArray_returns record E partition n array []).of_eq_ok h
    exact ⟨rows, hrows, hwidth, by rw [hpositions]⟩
  · rintro ⟨rows, hrows, hwidth, rfl⟩
    rw [scanArray_complete record E partition [] hrows hwidth hlen, hpositions]

/-- An extracted array is no longer than the slice. -/
theorem length_extracted {E : ScanErrors ε} {closing : List UInt8 → Option String} {slice : Slice}
    {array : List UInt8} (h : extractDataArray E closing slice.1 = .ok array) :
    array.length < 2 ^ 64 := by
  have hle := ((extractDataArray_returns E closing slice.1).of_eq_ok h).1
  have hslice := slice.2
  omega

theorem bind_eq_ok {ε α β : Type} {x : Scan ε α} {g : α → Scan ε β} {b : β} :
    x >>= g = .ok b ↔ ∃ a, x = .ok a ∧ g a = .ok b := by
  cases x with
  | error e => simp [bind, Except.bind]
  | ok a => simp [bind, Except.bind]

variable {mapErr partition n}

theorem coreScan_eq_ok {slice : Slice} {r : Nat × List (Nat × Nat × Option (List Char))} :
    coreScan mapErr partition n slice = .ok r ↔
      ∃ array rows, Jsonv2Scanner.extractJsonv2DataArray slice.1 = .ok array ∧
        Text (RowsText lenient) array rows ∧ HasWidth n rows ∧
        r = (rows.length, positions rows) := by
  rw [coreScan, scanRowsWith, bind_eq_ok]
  constructor
  · rintro ⟨array, harray, hscan⟩
    obtain ⟨rows, hrows, hwidth, hr⟩ := (scanArray_eq_ok _ _ _ (length_extracted harray)).mp hscan
    exact ⟨array, rows, (extractDataArray_sameOk _ _ _ _ _).mp harray, hrows, hwidth, hr⟩
  · rintro ⟨array, rows, harray, hrows, hwidth, hr⟩
    refine ⟨array, (extractDataArray_sameOk _ _ _ _ _).mp harray, ?_⟩
    exact (scanArray_eq_ok _ _ _ (length_extracted harray)).mpr ⟨rows, hrows, hwidth, hr⟩

theorem coreDecode_eq_ok {slice : Slice} {rows : Rows} :
    coreDecode slice = .ok rows ↔
      ∃ array, Jsonv2Scanner.extractJsonv2DataArray slice.1 = .ok array ∧
        Text (RowsText lenient) array rows := by
  rw [coreDecode, decodePartitionRows, bind_eq_ok]
  simp only [decodeArray_eq_ok]

theorem frameScan_eq_ok {slice : Slice} {r : Nat × List (Nat × Nat × Option (List Char))} :
    frameScan partition n slice = .ok r ↔
      ∃ array rows, extractJsonv2DataArray slice.1 = .ok array ∧
        Text (RowsText lenient) array rows ∧ HasWidth n rows ∧
        r = (rows.length, positions rows) := by
  rw [frameScan, scanRows, bind_eq_ok]
  constructor
  · rintro ⟨array, harray, hscan⟩
    obtain ⟨rows, hrows, hwidth, hr⟩ := (scanArray_eq_ok _ _ _ (length_extracted harray)).mp hscan
    exact ⟨array, rows, harray, hrows, hwidth, hr⟩
  · rintro ⟨array, rows, harray, hrows, hwidth, hr⟩
    refine ⟨array, harray, ?_⟩
    exact (scanArray_eq_ok _ _ _ (length_extracted harray)).mpr ⟨rows, hrows, hwidth, hr⟩

/-- The scanners agree on every slice but an unclosed envelope, which only the
frame's copy accepts. -/
theorem scannersAgree_iff (slice : Slice) :
    ScannersAgree mapErr partition n slice ↔ ¬ UnclosedEnvelope n slice.1 := by
  constructor
  · rintro hagree ⟨s, array, after, rows, hs, hscan, hclosed, hrows, hwidth⟩
    have hframe : extractJsonv2DataArray slice.1 = .ok array :=
      extractJsonv2DataArray_eq_ok.mpr (Or.inr ⟨s, after, hs, hscan, hclosed⟩)
    obtain ⟨rows', hdecode, -⟩ :=
      hagree.frame.mpr ⟨_, frameScan_eq_ok.mpr ⟨array, rows, hframe, hrows, hwidth, rfl⟩⟩
    obtain ⟨array', harray', -⟩ := coreDecode_eq_ok.mp hdecode
    exact not_extracted_of_unclosed hs hscan hclosed array' harray'
  · intro hclosed
    -- outside unclosed envelopes the frame extracts what the core does
    have hextract : ∀ array rows, Text (RowsText lenient) array rows → HasWidth n rows →
        extractJsonv2DataArray slice.1 = .ok array →
        Jsonv2Scanner.extractJsonv2DataArray slice.1 = .ok array := by
      intro array rows hrows hwidth harray
      rcases extractJsonv2DataArray_eq_ok.mp harray with hcore | ⟨s, after, hs, hscan, hopen⟩
      · exact hcore
      · exact absurd ⟨s, array, after, rows, hs, hscan, hopen, hrows, hwidth⟩ hclosed
    have hframe : ∀ array, Jsonv2Scanner.extractJsonv2DataArray slice.1 = .ok array →
        extractJsonv2DataArray slice.1 = .ok array :=
      fun array harray ↦ extractJsonv2DataArray_eq_ok.mpr (Or.inl harray)
    refine ⟨⟨?_, ?_⟩, ⟨?_, ?_⟩, ?_⟩
    · rintro ⟨r, hr⟩
      obtain ⟨array, rows, harray, hrows, hwidth, -⟩ := coreScan_eq_ok.mp hr
      exact ⟨rows, coreDecode_eq_ok.mpr ⟨array, harray, hrows⟩, hwidth⟩
    · rintro ⟨rows, hdecode, hwidth⟩
      obtain ⟨array, harray, hrows⟩ := coreDecode_eq_ok.mp hdecode
      exact ⟨_, coreScan_eq_ok.mpr ⟨array, rows, harray, hrows, hwidth, rfl⟩⟩
    · rintro ⟨rows, hdecode, hwidth⟩
      obtain ⟨array, harray, hrows⟩ := coreDecode_eq_ok.mp hdecode
      exact ⟨_, frameScan_eq_ok.mpr ⟨array, rows, hframe array harray, hrows, hwidth, rfl⟩⟩
    · rintro ⟨r, hr⟩
      obtain ⟨array, rows, harray, hrows, hwidth, -⟩ := frameScan_eq_ok.mp hr
      exact ⟨rows, coreDecode_eq_ok.mpr ⟨array, hextract array rows hrows hwidth harray, hrows⟩,
        hwidth⟩
    · intro rows hdecode hwidth
      obtain ⟨array, harray, hrows⟩ := coreDecode_eq_ok.mp hdecode
      exact ⟨coreScan_eq_ok.mpr ⟨array, rows, harray, hrows, hwidth, rfl⟩,
        frameScan_eq_ok.mpr ⟨array, rows, hframe array harray, hrows, hwidth, rfl⟩⟩

/-- `{"data":[["a"]]` is refused by the core and read by the frame. -/
theorem not_scannersAgree :
    ¬ ScannersAgree id 0 1 ⟨[0x7b, 0x22, 0x64, 0x61, 0x74, 0x61, 0x22, 0x3a, 0x5b, 0x5b, 0x22, 0x61,
      0x22, 0x5d, 0x5d], by decide⟩ := by
  intro hagree
  obtain ⟨rows, hdecode, -⟩ := hagree.frame.mpr ⟨(1, [(0, 0, some ['a'])]), rfl⟩
  have hrefused : coreDecode ⟨[0x7b, 0x22, 0x64, 0x61, 0x74, 0x61, 0x22, 0x3a, 0x5b, 0x5b, 0x22,
      0x61, 0x22, 0x5d, 0x5d], by decide⟩ =
      .error (.error (.decode "expected ',' or '\x7d' after 'data' array in envelope")) := by decide
  rw [hrefused] at hdecode
  cases hdecode

end Agree

end FrankenSnowflake.ZeroCopyDecoder
