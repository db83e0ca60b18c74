import FrankenSnowflake.Foundation.Json
import FrankenSnowflake.Foundation.Swar

/-!
# The `jsonv2` row scanner

The hand-written scanner that reads result partitions from raw bytes, either a
bare two-dimensional array or an envelope object with a top-level `"data"`
array.

A cursor `pos` into the byte slice is the list of bytes from `pos` on.  Loops
run on fuel, and a scan that would index out of bounds says so: a `Fault` is an
error the source reports, or one of these two ways for the model to go wrong,
which `Jsonv2ScannerCorrect` excludes.

In hexadecimal, `"` is 22, `\` 5c, `[` 5b, `]` 5d, `{` 7b, `}` 7d, `,` 2c, `:`
3a, `n` 6e, `u` 75.
-/

namespace FrankenSnowflake.Jsonv2Scanner

open Foundation Foundation.Json

/-- Structural or lexical error while scanning a partition. -/
inductive Jsonv2ScanError where
  | rowWidthMismatch (partitionIndex rowIndex expected actual : Nat)
  | rowCountOverflow
  | decode (reason : String)
deriving DecidableEq, Repr

/-- The `Display` of a scan error. -/
def Jsonv2ScanError.display : Jsonv2ScanError → String
  | .rowWidthMismatch partition row expected actual =>
      s!"row width mismatch in partition {partition}, row {row}: expected {expected} columns, got {actual}"
  | .rowCountOverflow => "row count overflowed usize"
  | .decode reason => s!"failed to decode jsonv2 partition: {reason}"

/-- The errors a copy of the scanner reports. -/
structure ScanErrors (ε : Type) where
  decode : String → ε
  rowWidthMismatch : Nat → Nat → Nat → Nat → ε
  rowCountOverflow : ε

/-- The errors of the core scanner, mapped by `map_err`. -/
def ScanErrors.mapped {ε : Type} (mapErr : Jsonv2ScanError → ε) : ScanErrors ε where
  decode reason := mapErr (.decode reason)
  rowWidthMismatch partition row expected actual :=
    mapErr (.rowWidthMismatch partition row expected actual)
  rowCountOverflow := mapErr .rowCountOverflow

/-- How a scan ends when it returns no value. -/
inductive Fault (ε : Type) where
  | error (e : ε)
  | outOfBounds
  | outOfFuel
deriving DecidableEq, Repr

abbrev Scan (ε : Type) (α : Type) := Except (Fault ε) α

/-- A cell as the scanner hands it out. -/
inductive CellSlice where
  | null
  /-- A string without escapes. -/
  | borrowed (s : List Char)
  /-- A string with escapes, unescaped into the scratch buffer. -/
  | unescaped (s : List Char)
deriving DecidableEq, Repr

def CellSlice.asStr : CellSlice → Option (List Char)
  | .null => none
  | .borrowed s | .unescaped s => some s

/-! ## Finding a quote or a backslash -/

def isQuoteOrEscape (b : UInt8) : Bool := b = 0x22 || b = 0x5c

/-- The word test on eight bytes; little-endian, as the supported targets are. -/
def swarHit (chunk : List UInt8) : Bool :=
  let r₁ := Swar.zeroBytes (Swar.word chunk ^^^ 0x2222222222222222)
  let r₂ := Swar.zeroBytes (Swar.word chunk ^^^ 0x5c5c5c5c5c5c5c5c)
  (r₁ ||| r₂) &&& 0x8080808080808080 != 0

/-- The loop of `find_quote_or_escape` at offset `i`, eight bytes at a time. -/
def findFrom : Nat → Nat → List UInt8 → Option Nat
  | 0, i, s => (s.findIdx? isQuoteOrEscape).map (i + ·)
  | fuel + 1, i, s =>
      if s.length < 8 then (s.findIdx? isQuoteOrEscape).map (i + ·)
      else if swarHit (s.take 8) then
        match (s.take 8).findIdx? isQuoteOrEscape with
        | some j => some (i + j)
        | none => findFrom fuel (i + 8) (s.drop 8)
      else findFrom fuel (i + 8) (s.drop 8)

def findQuoteOrEscape (bytes : List UInt8) : Option Nat := findFrom bytes.length 0 bytes

section Scanner

variable {ε : Type} (E : ScanErrors ε) {α : Type}

def fail (reason : String) : Scan ε α := .error (.error (E.decode reason))

/-- `bytes[i]` for a cursor at `s`. -/
def byteAt (s : List UInt8) (i : Nat) : Scan ε UInt8 :=
  match s[i]? with
  | some b => .ok b
  | none => .error .outOfBounds

/-! ## Strings -/

/-- `u16::from_str_radix(_, 16)`: a leading `+` is allowed, a lone sign is not. -/
def u16FromStrRadix16 (s : List UInt8) : Option Nat :=
  match s with
  | [] | [0x2b] | [0x2d] => none
  | 0x2b :: ds => (hexDigits? 0 ds).filter (· < 0x10000)
  | ds => (hexDigits? 0 ds).filter (· < 0x10000)

/-- The low half of a surrogate pair, after the escape of the high half. -/
def lowSurrogate (code : Nat) (after : List UInt8) : Scan ε (Char × List UInt8) :=
  if 6 ≤ after.length ∧ after[0]? = some 0x5c ∧ after[1]? = some 0x75 then
    let low := (after.drop 2).take 4
    match Utf8.decode low with
    | none => fail E "invalid UTF-8 in low surrogate"
    | some _ =>
    match u16FromStrRadix16 low with
    | none => fail E "invalid hex in low surrogate"
    | some lowCode =>
    if isLowSurrogate lowCode then
      if pairScalar code lowCode < 0x110000 then
        .ok (Char.ofNat (pairScalar code lowCode), after.drop 6)
      else fail E "invalid surrogate scalar codepoint"
    else fail E "expected low surrogate after high surrogate"
  else fail E "lone high surrogate without low surrogate"

/-- The four digits after `\u`, and the rest of a surrogate pair. -/
def unicodeEscape (s : List UInt8) : Scan ε (Char × List UInt8) :=
  if s.length < 4 then fail E "unterminated unicode escape"
  else
  match Utf8.decode (s.take 4) with
  | none => fail E "invalid UTF-8 in unicode escape"
  | some _ =>
  match u16FromStrRadix16 (s.take 4) with
  | none => fail E "invalid hex digits in unicode escape"
  | some code =>
  if isHighSurrogate code then lowSurrogate E code (s.drop 4)
  else if isLowSurrogate code then fail E "invalid unicode codepoint"
  else .ok (Char.ofNat code, s.drop 4)

/-- One escape, at its backslash. -/
def escape (s : List UInt8) : Scan ε (Char × List UInt8) :=
  match s with
  | [] => fail E "unexpected EOF in escaped string"
  | b :: s =>
  if b ≠ 0x5c then fail E "expected '\\' in escape decoder"
  else
  match s with
  | [] => fail E "unexpected EOF after '\\'"
  | e :: s =>
  match shortEscape? e with
  | some c => .ok (c, s)
  | none => if e = 0x75 then unicodeEscape E s else fail E "unknown escape sequence"

/-- The loop of `decode_escapes_into`: the unescaped bytes and what follows the
closing quote. -/
def decodeEscapesInto : Nat → List UInt8 → List UInt8 → Scan ε (List UInt8 × List UInt8)
  | 0, _, _ => .error .outOfFuel
  | fuel + 1, s, scratch => do
      let (c, s) ← escape E s
      match findQuoteOrEscape s with
      | none => fail E "unterminated string after escape"
      | some hit =>
          let scratch := scratch ++ String.utf8EncodeChar c ++ s.take hit
          let b ← byteAt s hit
          if b = 0x22 then .ok (scratch, s.drop (hit + 1))
          else decodeEscapesInto fuel (s.drop hit) scratch

/-- A string after its opening quote. -/
def scanString (s : List UInt8) : Scan ε (CellSlice × List UInt8) :=
  match findQuoteOrEscape s with
  | none => fail E "unterminated string quote in cell"
  | some hit => do
      let b ← byteAt s hit
      if b = 0x22 then
        match Utf8.decode (s.take hit) with
        | none => fail E "invalid UTF-8 in cell string"
        | some cs => .ok (.borrowed cs, s.drop (hit + 1))
      else
        let (scratch, rest) ← decodeEscapesInto E s.length (s.drop hit) (s.take hit)
        match Utf8.decode scratch with
        | none => fail E "invalid UTF-8 after unescaping cell string"
        | some cs => .ok (.unescaped cs, rest)

def matchNull (s : List UInt8) : Bool := s = [0x6e, 0x75, 0x6c, 0x6c]

/-- One cell: `null` or a string. -/
def scanCell (s : List UInt8) : Scan ε (CellSlice × List UInt8) :=
  match s with
  | [] => fail E "unexpected EOF in jsonv2 row"
  | b :: rest =>
      if b = 0x6e then
        if 4 ≤ s.length ∧ matchNull (s.take 4) then .ok (.null, s.drop 4)
        else fail E "invalid null literal in cell"
      else if b = 0x22 then scanString E rest
      else fail E "unexpected token in jsonv2 cell: expected '\"' or 'null'"

/-! ## The envelope -/

/-- The loop of `skip_json_string` at `pos`: the offset after the closing quote. -/
def skipJsonStringFrom : Nat → Nat → List UInt8 → Scan ε (Option Nat)
  | _, _, [] => .ok none
  | 0, _, _ :: _ => .error .outOfFuel
  | fuel + 1, pos, b :: s =>
      match findQuoteOrEscape (b :: s) with
      | none => .ok none
      | some rel => do
          let hit ← byteAt (b :: s) rel
          if hit = 0x22 then .ok (some (pos + rel + 1))
          else if hit = 0x5c then skipJsonStringFrom fuel (pos + rel + 2) ((b :: s).drop (rel + 2))
          else skipJsonStringFrom fuel (pos + rel + 1) ((b :: s).drop (rel + 1))

def skipJsonString (s : List UInt8) : Scan ε (Option Nat) := skipJsonStringFrom s.length 0 s

/-- The bracket-counting loop over the `data` array: the bytes it takes. -/
def arrayLength : Nat → Nat → List UInt8 → Scan ε Nat
  | _, 0, _ => .ok 0
  | _, _ + 1, [] => fail E "unclosed 'data' array in envelope"
  | 0, _ + 1, _ :: _ => .error .outOfFuel
  | fuel + 1, depth + 1, b :: s => do
      if b = 0x22 then
        match ← skipJsonString s with
        | none => fail E "unterminated string inside 'data' array"
        | some n => return 1 + n + (← arrayLength fuel (depth + 1) (s.drop n))
      else if b = 0x5b then return 1 + (← arrayLength fuel (depth + 2) s)
      else if b = 0x5d then return 1 + (← arrayLength fuel depth s)
      else return 1 + (← arrayLength fuel (depth + 1) s)

/-- The value of the `data` key: the array and what follows it. -/
def dataArray (s : List UInt8) : Scan ε (List UInt8 × List UInt8) :=
  match skipWs s with
  | [] => fail E "expected '[' at start of 'data' array in envelope"
  | b :: rest =>
      if b ≠ 0x5b then fail E "expected '[' at start of 'data' array in envelope"
      else do
        let n ← arrayLength E rest.length 1 rest
        return (b :: rest.take n, rest.drop n)

/-- The loop over the envelope object, `depth` braces deep. -/
def scanEnvelope : Nat → Nat → List UInt8 → Scan ε (List UInt8 × List UInt8)
  | 0, _, _ => .error .outOfFuel
  | _ + 1, 0, _ => fail E "missing 'data' array in jsonv2 envelope object"
  | fuel + 1, depth + 1, s =>
      match skipWs s with
      | [] => fail E "missing 'data' array in jsonv2 envelope object"
      | b :: s =>
          if b = 0x22 then do
            match ← skipJsonString s with
            | none => fail E "unterminated string in jsonv2 envelope"
            | some n =>
                let after := skipWs (s.drop n)
                -- a string at depth one is a key iff a colon follows it
                if depth = 0 ∧ s.take (n - 1) = [0x64, 0x61, 0x74, 0x61] ∧
                    after.head? = some 0x3a then
                  dataArray E after.tail
                else scanEnvelope fuel (depth + 1) after
          else if b = 0x7b then scanEnvelope fuel (depth + 2) s
          else if b = 0x7d then scanEnvelope fuel depth s
          else scanEnvelope fuel (depth + 1) s

/-- The array of a bare partition or of an envelope; `closing` says what is
wrong with the bytes after an envelope's array. -/
def extractDataArray (closing : List UInt8 → Option String) (bytes : List UInt8) :
    Scan ε (List UInt8) :=
  match skipWs bytes with
  | [] => fail E "unexpected EOF: expected '[' or '\x7b' at start of jsonv2 payload"
  | b :: s =>
      if b = 0x5b then .ok (b :: s)
      else if b = 0x7b then do
        let (array, after) ← scanEnvelope E (s.length + 2) 1 s
        match closing after with
        | some reason => fail E reason
        | none => return array
      else fail E "expected '[' or '\x7b' at start of jsonv2 payload"

/-- What the core extraction requires after the `data` array. -/
def closedByObject (rest : List UInt8) : Option String :=
  match skipWs rest with
  | 0x2c :: _ | 0x7d :: _ => none
  | _ => some "expected ',' or '\x7d' after 'data' array in envelope"

def extractJsonv2DataArray (bytes : List UInt8) : Scan Jsonv2ScanError (List UInt8) :=
  extractDataArray (.mapped id) closedByObject bytes

/-! ## Rows -/

variable {σ : Type}

/-- A cell visitor: row, column, cell, and the state it threads. -/
abbrev Visitor (ε : Type) (σ : Type) := Nat → Nat → CellSlice → σ → Except ε σ

/-- What the visitor makes of a cell, when the cell lies in the expected width. -/
def visitCell (visit : Visitor ε σ) (expected row col : Nat) (cell : CellSlice) (st : σ) :
    Scan ε σ :=
  if col < expected then
    match visit row col cell st with
    | .ok st => .ok st
    | .error e => .error (.error e)
  else .ok st

/-- The cells of a row from column `col` on, and the closing bracket: the width
of the row, the visitor's state and the rest. -/
def scanCells (visit : Visitor ε σ) (expected row : Nat) :
    Nat → Nat → List UInt8 → σ → Scan ε (Nat × σ × List UInt8)
  | 0, _, _, _ => .error .outOfFuel
  | fuel + 1, col, s, st => do
      let (cell, s) ← scanCell E s
      let st ← visitCell visit expected row col cell st
      match skipWs s with
      | [] => fail E "unexpected EOF after cell"
      | b :: s =>
          if b = 0x2c then scanCells visit expected row fuel (col + 1) (skipWs s) st
          else if b = 0x5d then .ok (col + 1, st, s)
          else fail E "expected ',' or ']' after cell"

/-- A row after its opening bracket, which must have `expected` cells. -/
def scanRow (visit : Visitor ε σ) (partition expected row : Nat) (s : List UInt8) (st : σ) :
    Scan ε (σ × List UInt8) :=
  match skipWs s with
  | 0x5d :: s =>
      if expected ≠ 0 then .error (.error (E.rowWidthMismatch partition row expected 0))
      else .ok (st, s)
  | s => do
      let (width, st, s) ← scanCells E visit expected row (s.length + 1) 0 s st
      if width ≠ expected then .error (.error (E.rowWidthMismatch partition row expected width))
      else .ok (st, s)

/-- What must follow the outer array. -/
def scanEnd {β : Type} (s : List UInt8) (b : β) : Scan ε β :=
  match skipWs s with
  | [] => .ok b
  | _ :: _ => fail E "trailing bytes after jsonv2 array closure"

/-- The rows from index `row` on, and the end of the payload. -/
def scanRowsFrom (visit : Visitor ε σ) (partition expected : Nat) :
    Nat → Nat → List UInt8 → σ → Scan ε (Nat × σ)
  | 0, _, _, _ => .error .outOfFuel
  | _ + 1, _, [], _ => fail E "unexpected EOF: unclosed jsonv2 outer array"
  | fuel + 1, row, b :: s, st =>
      if b ≠ 0x5b then fail E "expected '[' at start of jsonv2 row"
      else do
        let (st, s) ← scanRow E visit partition expected row s st
        if 2 ^ 64 ≤ row + 1 then .error (.error E.rowCountOverflow)
        else
        match skipWs s with
        | [] => fail E "unexpected EOF after row"
        | b :: s =>
            if b = 0x2c then
              scanRowsFrom visit partition expected fuel (row + 1) (skipWs s) st
            else if b = 0x5d then scanEnd E s (row + 1, st)
            else fail E "expected ',' or ']' after row"

/-- The body of the row scanners, on an extracted array. -/
def scanArray (visit : Visitor ε σ) (partition expected : Nat) (bytes : List UInt8) (st : σ) :
    Scan ε (Nat × σ) :=
  match skipWs bytes with
  | [] => fail E "unexpected EOF: expected '[' at start of jsonv2 array"
  | b :: s =>
  if b ≠ 0x5b then fail E "expected '[' at start of jsonv2 array"
  else
  match skipWs s with
  | [] => fail E "unexpected EOF: unclosed '[' at start of jsonv2 array"
  | 0x5d :: s => scanEnd E s (0, st)
  | s => scanRowsFrom E visit partition expected (s.length + 1) 0 s st

end Scanner

/-- `scan_rows_with`: the number of rows and the visitor's final state. -/
def scanRowsWith {ε σ : Type} (mapErr : Jsonv2ScanError → ε) (visit : Visitor ε σ)
    (partition expected : Nat) (bytes : List UInt8) (st : σ) : Scan ε (Nat × σ) := do
  let bytes ← extractDataArray (.mapped mapErr) closedByObject bytes
  scanArray (.mapped mapErr) visit partition expected bytes st

/-! ## Decoding a partition -/

/-- The errors `decode_partition_rows` reports. -/
def coreErrors : ScanErrors Jsonv2ScanError := .mapped id

/-- The cells of a row and its closing bracket. -/
def decodeCells :
    Nat → List UInt8 → Scan Jsonv2ScanError (List (Option (List Char)) × List UInt8)
  | 0, _ => .error .outOfFuel
  | fuel + 1, s => do
      let (cell, s) ← scanCell coreErrors s
      match skipWs s with
      | [] => fail coreErrors "unexpected EOF after cell"
      | b :: s =>
          if b = 0x2c then do
            let (row, s) ← decodeCells fuel (skipWs s)
            return (cell.asStr :: row, s)
          else if b = 0x5d then return ([cell.asStr], s)
          else fail coreErrors "expected ',' or ']' after cell"

/-- A row after its opening bracket. -/
def decodeRow (s : List UInt8) : Scan Jsonv2ScanError (List (Option (List Char)) × List UInt8) :=
  match skipWs s with
  | 0x5d :: s => .ok ([], s)
  | s => decodeCells (s.length + 1) s

/-- The rows that are left, and the end of the payload. -/
def decodeRowsFrom : Nat → List UInt8 → Scan Jsonv2ScanError (List (List (Option (List Char))))
  | 0, _ => .error .outOfFuel
  | _ + 1, [] => fail coreErrors "unexpected EOF: unclosed jsonv2 outer array"
  | fuel + 1, b :: s =>
      if b ≠ 0x5b then fail coreErrors "expected '[' at start of jsonv2 row"
      else do
        let (row, s) ← decodeRow s
        match skipWs s with
        | [] => fail coreErrors "unexpected EOF after row"
        | b :: s =>
            if b = 0x2c then return row :: (← decodeRowsFrom fuel (skipWs s))
            else if b = 0x5d then scanEnd coreErrors s [row]
            else fail coreErrors "expected ',' or ']' after row"

/-- The body of `decode_partition_rows`, on an extracted array. -/
def decodeArray (bytes : List UInt8) :
    Scan Jsonv2ScanError (List (List (Option (List Char)))) :=
  match skipWs bytes with
  | [] => fail coreErrors "expected '[' at start of jsonv2 array"
  | b :: s =>
  if b ≠ 0x5b then fail coreErrors "expected '[' at start of jsonv2 array"
  else
  match skipWs s with
  | [] => fail coreErrors "unexpected EOF: unclosed '[' at start of jsonv2 array"
  | 0x5d :: s => scanEnd coreErrors s []
  | s => decodeRowsFrom (s.length + 1) s

/-- `decode_partition_rows`: every row of a bare or enveloped partition, of any
widths. -/
def decodePartitionRows (bytes : List UInt8) :
    Scan Jsonv2ScanError (List (List (Option (List Char)))) := do
  let bytes ← extractJsonv2DataArray bytes
  decodeArray bytes

end FrankenSnowflake.Jsonv2Scanner
