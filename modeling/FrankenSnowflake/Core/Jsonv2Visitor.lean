import FrankenSnowflake.Core.Jsonv2ScannerCorrect

/-!
# What a row visitor sees

A visitor that reads each cell as an optional string and never fails is called
once for each cell of the payload, in order, with the cell's row and column; and
the scan succeeds on exactly the row arrays of the expected width.
-/

namespace FrankenSnowflake.Jsonv2Scanner

open Foundation Foundation.Json

variable {ε σ : Type}

/-- A visitor that never fails and reads cells by `as_str`. -/
def reading (f : Nat → Nat → Option (List Char) → σ → σ) : Visitor ε σ :=
  fun row col cell st ↦ .ok (f row col cell.asStr st)

variable (f : Nat → Nat → Option (List Char) → σ → σ)

/-- The calls for the cells of a row, from column `col` on. -/
def visitCells (row : Nat) : Nat → List (Option (List Char)) → σ → σ
  | _, [], st => st
  | col, v :: vs, st => visitCells row (col + 1) vs (f row col v st)

/-- The calls for the rows from index `row` on. -/
def visitRows : Nat → List (List (Option (List Char))) → σ → σ
  | _, [], st => st
  | row, cells :: rows, st => visitRows (row + 1) rows (visitCells f row 0 cells st)

variable (E : ScanErrors ε)

theorem scanCells_returns {expected row fuel col : Nat} {s : List UInt8} {st : σ}
    (hfuel : s.length < fuel) :
    Returns (fun r ↦ ∃ t cells, s = t ++ 0x5d :: r.2.2 ∧ Elements (CellText lenient) t cells ∧
        r.1 = col + cells.length ∧ (r.1 ≤ expected → r.2.1 = visitCells f row col cells st))
      (scanCells E (reading f) expected row fuel col s st) := by
  induction fuel generalizing col s st with
  | zero => exact absurd hfuel (Nat.not_lt_zero _)
  | succ fuel ih =>
      refine (scanCell_returns E s).bind ?_
      rintro ⟨cell, s'⟩ ⟨t, rfl, ht⟩
      have hvisit : Returns (fun st' ↦ col < expected → st' = f row col cell.asStr st)
          (visitCell (reading (ε := ε) f) expected row col cell st) := by
        unfold visitCell reading
        split
        next => exact .ok fun _ ↦ rfl
        next h => exact .ok fun hlt ↦ absurd hlt h
      refine hvisit.bind ?_
      intro st' hst'
      dsimp only
      split
      next => exact .fail E _
      next b post hskip =>
      obtain ⟨w, hw, rfl⟩ := skipWs_eq_cons hskip
      split
      next hcomma =>
        subst hcomma
        obtain ⟨w', hw', hpost⟩ := exists_ws_append post
        have hlen := length_skipWs_le post
        refine (ih (by simp at hfuel; omega)).mono ?_
        rintro ⟨width, st'', rest⟩ ⟨ts, cells, hts, hcells, hwidth, hst⟩
        dsimp only at hts hwidth hst ⊢
        refine ⟨_, _, ?_, .cons ht hw hw' hcells, ?_, ?_⟩
        · rw [hpost]
          simp [hts]
        · simp
          omega
        · intro hle
          rw [hst hle, hst' (by omega)]
          rfl
      next =>
        split
        next hclose =>
          subst hclose
          refine .ok ⟨_, _, by simp, .one ht hw, rfl, ?_⟩
          intro hle
          exact hst' hle
        next => exact .fail E _

/-- Cells within the expected width are visited and counted. -/
theorem scanCells_complete {expected fuel : Nat} {t : List UInt8}
    {cells : List (Option (List Char))} (h : Elements (CellText lenient) t cells)
    (row col : Nat) (st : σ) (hfuel : t.length < fuel) (hle : col + cells.length ≤ expected) (rest : List UInt8) :
    scanCells E (reading f) expected row fuel col (t ++ 0x5d :: rest) st =
      .ok (col + cells.length, visitCells f row col cells st, rest) := by
  induction h generalizing fuel col st with
  | @one t w v ht hw =>
      obtain ⟨fuel, rfl⟩ : ∃ k, fuel = k + 1 := ⟨fuel - 1, by omega⟩
      obtain ⟨cell, hcell, rfl⟩ := scanCell_complete E ht (w ++ 0x5d :: rest)
      have hcol : col < expected := hle
      rw [List.append_assoc, scanCells, hcell]
      simp [bind, Except.bind, visitCell, reading, hcol,
        skipWs_append_cons hw (show isWs 0x5d = false by decide), visitCells]
  | @cons t w w' ts v vs ht hw hw' hts ih =>
      obtain ⟨fuel, rfl⟩ : ∃ k, fuel = k + 1 := ⟨fuel - 1, by omega⟩
      obtain ⟨cell, hcell, rfl⟩ :=
        scanCell_complete E ht (w ++ 0x2c :: (w' ++ (ts ++ 0x5d :: rest)))
      rw [List.length_cons] at hle
      have hcol : col < expected := by omega
      have htail := ih (col + 1) (f row col cell.asStr st)
        (show ts.length < fuel by simp at hfuel; omega) (by omega)
      have hnext := (hts.starts fun _ _ ↦ CellText.starts).skipWs (t := 0x5d :: rest) hw'
      rw [List.append_assoc, List.append_assoc, List.cons_append, List.append_assoc, scanCells,
        hcell]
      simp [bind, Except.bind, visitCell, reading, hcol,
        skipWs_append_cons hw (show isWs 0x2c = false by decide), hnext, htail, visitCells]
      omega

theorem scanRow_returns {partition expected row : Nat} (s : List UInt8) (st : σ) :
    Returns (fun r ↦ ∃ t cells, 0x5b :: s = t ++ r.2 ∧ ArrayText (CellText lenient) t cells ∧
        cells.length = expected ∧ r.1 = visitCells f row 0 cells st)
      (scanRow E (reading f) partition expected row s st) := by
  unfold scanRow
  split
  next post hskip =>
    obtain ⟨w, hw, rfl⟩ := skipWs_eq_cons hskip
    split
    next => trivial
    next hzero =>
      have hexpected : expected = 0 := by simpa using hzero
      exact .ok ⟨_, [], by simp, .empty hw, hexpected.symm, rfl⟩
  next =>
    obtain ⟨w, hw, hs⟩ := exists_ws_append s
    refine (scanCells_returns f E (Nat.lt_succ_self _)).bind ?_
    rintro ⟨width, st', rest⟩ ⟨t, cells, ht, hcells, hwidth, hst⟩
    dsimp only at ht hwidth hst ⊢
    split
    next => trivial
    next heq =>
      have heq : width = expected := by simpa using heq
      refine .ok ⟨_, cells, ?_, .elements hw hcells, by omega, hst (by omega)⟩
      rw [hs, ht]
      simp

theorem scanRow_complete (partition : Nat) {expected : Nat} (row : Nat) {t : List UInt8} (st : σ)
    {cells : List (Option (List Char))} (h : ArrayText (CellText lenient) (0x5b :: t) cells)
    (hlen : cells.length = expected) (rest : List UInt8) :
    scanRow E (reading f) partition expected row (t ++ rest) st =
      .ok (visitCells f row 0 cells st, rest) := by
  unfold scanRow
  cases h with
  | @empty w hw =>
      rw [List.append_assoc, List.singleton_append, skipWs_append_cons hw (by decide)]
      simp [← hlen, visitCells]
  | @elements w ts _ hw hts =>
      obtain ⟨b, ts', rfl, hb, hb'⟩ := hts.starts fun _ _ ↦ CellText.starts
      have hcells := scanCells_complete f E hts row 0 st
        (Nat.lt_of_le_of_lt (by simp) (Nat.lt_succ_self (b :: ts' ++ 0x5d :: rest).length))
        (show 0 + cells.length ≤ expected by omega) rest
      rw [List.append_assoc, List.append_assoc, List.singleton_append, List.cons_append,
        skipWs_append_cons hw hb]
      rw [List.cons_append] at hcells
      split
      next h => exact absurd (List.cons.inj h).1 hb'
      next =>
        rw [hcells]
        simp [bind, Except.bind, hlen]

/-- The rows of a payload are visited one after another. -/
theorem scanRowsFrom_returns {partition expected fuel row : Nat} {s : List UInt8} {st : σ}
    (hfuel : s.length < fuel) :
    Returns (fun r ↦ ∃ t w rows, s = t ++ 0x5d :: w ∧ Ws w ∧
        Elements (ArrayText (CellText lenient)) t rows ∧
        (∀ cells ∈ rows, cells.length = expected) ∧
        r = (row + rows.length, visitRows f row rows st))
      (scanRowsFrom E (reading f) partition expected fuel row s st) := by
  induction fuel generalizing row s st with
  | zero => exact absurd hfuel (Nat.not_lt_zero _)
  | succ fuel ih =>
      cases s with
      | nil => exact .fail E _
      | cons b s =>
          rw [scanRowsFrom]
          split
          next => exact .fail E _
          next hb =>
          obtain rfl : b = 0x5b := by simpa using hb
          refine (scanRow_returns f E s st).bind ?_
          rintro ⟨st', s'⟩ ⟨t, cells, hs, ht, hlen, hst⟩
          dsimp only at hs hst ⊢
          split
          next => trivial
          split
          next => exact .fail E _
          next b post hskip =>
          obtain ⟨w, hw, rfl⟩ := skipWs_eq_cons hskip
          rw [hs]
          rw [hs] at hfuel
          split
          next hcomma =>
            subst hcomma
            obtain ⟨w', hw', hpost⟩ := exists_ws_append post
            have hle := length_skipWs_le post
            refine (ih (by simp at hfuel; omega)).mono ?_
            rintro r ⟨ts, w'', rows, hts, hw'', hrows, hwidths, rfl⟩
            refine ⟨_, w'', _, ?_, hw'', .cons ht hw hw' hrows,
              List.forall_mem_cons.mpr ⟨hlen, hwidths⟩, ?_⟩
            · rw [hpost]
              simp [hts]
            · simp [visitRows, hst]
              omega
          next =>
            split
            next hclose =>
              subst hclose
              refine (scanEnd_returns E post _).mono ?_
              rintro r ⟨hpost, rfl⟩
              refine ⟨_, post, [cells], by simp, hpost, .one ht hw, by simpa using hlen, ?_⟩
              simp [visitRows, hst]
            next => exact .fail E _

theorem scanRowsFrom_complete (partition : Nat) {expected fuel : Nat} {t w : List UInt8}
    {rows : List (List (Option (List Char)))}
    (h : Elements (ArrayText (CellText lenient)) t rows) (row : Nat) (st : σ)
    (hwidths : ∀ cells ∈ rows, cells.length = expected) (hw : Ws w) (hfuel : t.length < fuel)
    (hcount : row + rows.length < 2 ^ 64) :
    scanRowsFrom E (reading f) partition expected fuel row (t ++ 0x5d :: w) st =
      .ok (row + rows.length, visitRows f row rows st) := by
  induction h generalizing fuel row st with
  | @one t w₁ cells ht hw₁ =>
      obtain ⟨fuel, rfl⟩ : ∃ k, fuel = k + 1 := ⟨fuel - 1, by omega⟩
      obtain ⟨t, rfl⟩ := ht.eq_cons
      have hrow := scanRow_complete f E partition row st ht
        (by simpa using hwidths) (w₁ ++ 0x5d :: w)
      have hover : ¬ 2 ^ 64 ≤ row + 1 := Nat.not_le.mpr hcount
      rw [List.append_assoc, List.cons_append, scanRowsFrom, hrow]
      simp only [bind, Except.bind, if_neg hover, ne_eq, not_true_eq_false, ↓reduceIte]
      simp [skipWs_append_cons hw₁ (show isWs 0x5d = false by decide), scanEnd_complete E hw,
        visitRows]
  | @cons t w₁ w₂ ts cells rows ht hw₁ hw₂ hts ih =>
      obtain ⟨fuel, rfl⟩ : ∃ k, fuel = k + 1 := ⟨fuel - 1, by omega⟩
      obtain ⟨t, rfl⟩ := ht.eq_cons
      obtain ⟨hlen, hwidths⟩ := List.forall_mem_cons.mp hwidths
      rw [List.length_cons] at hcount
      have hover : ¬ 2 ^ 64 ≤ row + 1 := by omega
      have hrow := scanRow_complete f E partition row st ht hlen
        (w₁ ++ 0x2c :: (w₂ ++ (ts ++ 0x5d :: w)))
      have htail := ih (row + 1) (visitCells f row 0 cells st) hwidths
        (show ts.length < fuel by simp at hfuel; omega) (by omega)
      have hnext := (hts.starts fun _ _ ↦ ArrayText.starts).skipWs (t := 0x5d :: w) hw₂
      rw [List.append_assoc, List.append_assoc, List.cons_append, List.cons_append,
        List.append_assoc, scanRowsFrom, hrow]
      simp only [bind, Except.bind, if_neg hover, ne_eq, not_true_eq_false, ↓reduceIte]
      simp [skipWs_append_cons hw₁ (show isWs 0x2c = false by decide), hnext, htail, visitRows]
      omega

/-- A scan that succeeds has visited the cells of a row array of the expected
width. -/
theorem scanArray_returns (partition expected : Nat) (bytes : List UInt8) (st : σ) :
    Returns (fun r ↦ ∃ rows, Text (RowsText lenient) bytes rows ∧
        (∀ cells ∈ rows, cells.length = expected) ∧ r = (rows.length, visitRows f 0 rows st))
      (scanArray E (reading f) partition expected bytes st) := by
  unfold scanArray
  split
  next => exact .fail E _
  next b s hskip =>
  obtain ⟨w, hw, rfl⟩ := skipWs_eq_cons hskip
  split
  next => exact .fail E _
  next hb =>
  obtain rfl : b = 0x5b := by simpa using hb
  obtain ⟨w', hw', hs⟩ := exists_ws_append s
  split
  next => exact .fail E _
  next post hskip' =>
    refine (scanEnd_returns E post _).mono ?_
    rintro r ⟨hpost, rfl⟩
    refine ⟨[], ⟨w, _, post, hw, .empty hw', hpost, ?_⟩, by simp, rfl⟩
    rw [hs, hskip']
    simp
  next =>
    refine (scanRowsFrom_returns f E (Nat.lt_succ_self _)).mono ?_
    rintro r ⟨t, w'', rows, ht, hw'', hrows, hwidths, rfl⟩
    refine ⟨rows, ⟨w, _, w'', hw, .elements hw' hrows, hw'', ?_⟩, hwidths, by simp⟩
    rw [hs, ht]
    simp

theorem Elements.length_le {P : List UInt8 → List (Option (List Char)) → Prop}
    (hP : ∀ t a, P t a → t ≠ []) {t : List UInt8} {rows : List (List (Option (List Char)))}
    (h : Elements P t rows) : rows.length ≤ t.length := by
  induction h with
  | one ht hw =>
      have hpos := List.length_pos_iff.mpr (hP _ _ ht)
      simp
      omega
  | cons ht hw hw' _ ih =>
      have hpos := List.length_pos_iff.mpr (hP _ _ ht)
      simp
      omega

theorem scanArray_complete (partition : Nat) {expected : Nat} {bytes : List UInt8} (st : σ)
    {rows : List (List (Option (List Char)))} (h : Text (RowsText lenient) bytes rows)
    (hwidths : ∀ cells ∈ rows, cells.length = expected) (hbytes : bytes.length < 2 ^ 64) :
    scanArray E (reading f) partition expected bytes st =
      .ok (rows.length, visitRows f 0 rows st) := by
  obtain ⟨w, t, w', hw, ht, hw', rfl⟩ := h
  unfold scanArray
  cases ht with
  | @empty w₁ hw₁ =>
      rw [List.cons_append, skipWs_append_cons hw (by decide), List.append_assoc,
        List.singleton_append]
      simp only [skipWs_append_cons hw₁ (show isWs 0x5d = false by decide)]
      exact scanEnd_complete E hw' _
  | @elements w₁ ts _ hw₁ hts =>
      have hcount := Elements.length_le (fun _ _ h ↦ by
        obtain ⟨s', rfl⟩ := ArrayText.eq_cons h
        simp) hts
      obtain ⟨b, ts', rfl, hb, hb'⟩ := hts.starts fun _ _ ↦ ArrayText.starts
      have hrows := scanRowsFrom_complete f E partition hts 0 st hwidths hw'
        (Nat.lt_of_le_of_lt (by simp) (Nat.lt_succ_self (b :: ts' ++ 0x5d :: w').length))
        (by simp at hbytes hcount; omega)
      rw [List.cons_append, skipWs_append_cons hw (by decide), List.append_assoc,
        List.append_assoc, List.singleton_append, List.cons_append]
      rw [List.cons_append, Nat.zero_add] at hrows
      simp only [skipWs_append_cons hw₁ hb, ne_eq, not_true_eq_false, ↓reduceIte]
      split
      next h => cases h
      next h => exact absurd (List.cons.inj h).1 hb'
      next => exact hrows

end FrankenSnowflake.Jsonv2Scanner
