import FrankenSnowflake.Core.Jsonv2Envelope
import FrankenSnowflake.SqlApi.LifecycleAssembly

/-!
# The raw partitions

Besides the rows a machine keeps the raw slices they were read from.  The inline
rows come out of the JSON parser, the inline slice out of the byte scan for the
`data` key, and a scan that fails leaves the slice out.  So the two agree when
the scan finds what the parser read: when the body spells the key `data`.
-/

namespace FrankenSnowflake.SqlApi

open Foundation Foundation.Json Jsonv2Scanner

/-! ## What the parser accepts -/

/-- A key that reads as `data`. -/
def IsDataKey (key : List UInt8) : Prop := BodyText rfc8259 key ['d', 'a', 't', 'a']

/-- The first byte of a number. -/
def isNumberStart (b : UInt8) : Bool := b = 0x2d || 0x30 ≤ b && b ≤ 0x39

/-- A body that parses as a result set. -/
inductive ResultSetText : List UInt8 → ResultSet → Prop where
  /-- An object with one `data` member, which holds the rows. -/
  | object {body : List UInt8} {rs : ResultSet} {pre post : List Member} {m : Member}
      (hbody : Text ObjectText body (pre ++ m :: post)) (hkey : IsDataKey m.key)
      (hothers : ∀ m' ∈ pre ++ post, ¬ IsDataKey m'.key) (hdata : RowsText rfc8259 m.value rs.data) :
      ResultSetText body rs
  /-- The fields as an array, in their order: the metadata comes first, an object
  or again an array, which starts with `numRows`. -/
  | positional {body s : List UInt8} {rs : ResultSet} (hbody : skipWs body = 0x5b :: s)
      (hmeta : (skipWs s).head? = some 0x7b ∨
        ∃ s' b, skipWs s = 0x5b :: s' ∧ (skipWs s').head? = some b ∧ isNumberStart b) :
      ResultSetText body rs

/-- The JSON parser accepts result sets only. -/
def Serde.ParsesResultSets (serde : Serde) : Prop :=
  ∀ body rs, serde.resultSet body = .ok rs → ResultSetText body rs

/-- The body is an object, and the first member spelled `data` holds an array. -/
def LiteralDataKey (body : List UInt8) : Prop :=
  ∃ ms m, Text ObjectText body ms ∧ ms.find? (·.key = dataKey) = some m ∧
    m.value.head? = some 0x5b

theorem isDataKey_dataKey : IsDataKey dataKey := by
  have hraw : ∀ {c : Char} {t : List UInt8} {cs : List Char}, rfc8259.raw c →
      BodyText rfc8259 t cs → BodyText rfc8259 (String.utf8EncodeChar c ++ t) (c :: cs) := .raw
  have hkey := hraw (c := 'd') (by decide) (hraw (c := 'a') (by decide)
    (hraw (c := 't') (by decide) (hraw (c := 'a') (by decide) .nil)))
  exact hkey

theorem rowsText_head {D : Dialect} {v : List UInt8} {rows : List Row} (h : RowsText D v rows) :
    v.head? = some 0x5b := by
  obtain ⟨s, rfl⟩ := ArrayText.eq_cons h
  rfl

theorem cellText_head {t rest : List UInt8} {v : Option (List Char)}
    (h : CellText lenient t v) :
    (t ++ rest).head? = some 0x6e ∨ (t ++ rest).head? = some 0x22 := by
  cases h with
  | null => exact Or.inl rfl
  | string h =>
      obtain ⟨t, rfl, -⟩ := h
      exact Or.inr rfl

/-- A row array starts with the bracket of a row, and the row with a cell. -/
theorem rowsText_start {s : List UInt8} {rows : List Row}
    (h : Text (RowsText lenient) (0x5b :: s) rows) :
    (skipWs s).head? = some 0x5d ∨ ∃ s', skipWs s = 0x5b :: s' ∧
      ((skipWs s').head? = some 0x5d ∨ (skipWs s').head? = some 0x6e ∨
        (skipWs s').head? = some 0x22) := by
  obtain ⟨w, t, w', hw, ht, hw', heq⟩ := h
  have hskip := ht.starts.skipWs (t := w') hw
  rw [← heq, skipWs_of_head (by simp [isWs])] at hskip
  obtain ⟨s', hs', hnext⟩ := ht.next (fun _ _ ↦ ArrayText.starts) w'
  rw [← hskip] at hs'
  obtain rfl := (List.cons.inj hs').2
  refine hnext.imp id ?_
  rintro ⟨t₁, row, rest, hrow, hs⟩
  obtain ⟨s', hs', hcell⟩ := hrow.next (fun _ _ ↦ CellText.starts) rest
  refine ⟨s', hs.trans hs', hcell.imp id ?_⟩
  rintro ⟨t₂, v, rest', hv, hs''⟩
  rw [hs'']
  exact cellText_head hv

/-- No row array starts like the fields of a result set. -/
theorem not_rowsText_positional {s : List UInt8} {rows : List Row}
    (hmeta : (skipWs s).head? = some 0x7b ∨
      ∃ s' b, skipWs s = 0x5b :: s' ∧ (skipWs s').head? = some b ∧ isNumberStart b) :
    ¬ Text (RowsText lenient) (0x5b :: s) rows := by
  intro h
  rcases hmeta with hmeta | ⟨s', b, hs', hb, hnumber⟩
  · rcases rowsText_start h with hs | ⟨s', hs, -⟩
    · rw [hmeta] at hs
      cases hs
    · rw [hs] at hmeta
      cases hmeta
  · rcases rowsText_start h with hs | ⟨s'', hs, hcell⟩
    · rw [hs'] at hs
      cases hs
    · rw [hs'] at hs
      obtain rfl := (List.cons.inj hs).2
      rw [hb] at hcell
      rcases hcell with hcell | hcell | hcell
      all_goals
        obtain rfl := Option.some.inj hcell
        exact absurd hnumber (by decide)

/-- An object that parses gives up its rows exactly when the key is literal. -/
theorem extracted_of_object {body : List UInt8} {pre post : List Member} {m : Member}
    (hbody : Text ObjectText body (pre ++ m :: post))
    (hothers : ∀ m' ∈ pre ++ post, ¬ IsDataKey m'.key) :
    (m.key = dataKey → (pre ++ m :: post).find? (·.key = dataKey) = some m) ∧
      (m.key ≠ dataKey → ∀ raw, extractData body ≠ .ok raw) := by
  have hother : ∀ m' ∈ pre ++ post, m'.key ≠ dataKey := by
    rintro m' hm' heq
    exact hothers m' hm' (heq ▸ isDataKey_dataKey)
  constructor
  · intro hliteral
    have hpre : pre.find? (·.key = dataKey) = none := by
      rw [List.find?_eq_none]
      intro m' hm'
      simpa using hother m' (List.mem_append_left _ hm')
    simp [List.find?_append, hpre, hliteral]
  · intro hescaped
    refine extractData_object_ne hbody ?_
    intro m' hm'
    rcases List.mem_append.mp hm' with hm' | hm'
    · exact hother m' (List.mem_append_left _ hm')
    · rcases List.mem_cons.mp hm' with rfl | hm'
      · exact hescaped
      · exact hother m' (List.mem_append_right _ hm')

/-- The scan finds the rows that the parser read exactly when the key is spelled
`data`. -/
theorem extracted_iff {serde : Serde} (hserde : serde.ParsesResultSets) {body : List UInt8}
    {rs : ResultSet} (hrs : serde.resultSet body = .ok rs) :
    (∃ raw, extractData body = .ok raw ∧ decodeRows raw = .ok rs.data) ↔ LiteralDataKey body := by
  cases hserde _ _ hrs with
  | @object _ pre post m hbody hkey hothers hdata =>
      obtain ⟨hfind, hnone⟩ := extracted_of_object hbody hothers
      constructor
      · rintro ⟨raw, hraw, -⟩
        by_cases hliteral : m.key = dataKey
        · exact ⟨_, m, hbody, hfind hliteral, rowsText_head hdata⟩
        · exact absurd hraw (hnone hliteral raw)
      · rintro ⟨ms, m', htext, hfind', harray⟩
        have hraw' := extractData_object htext hfind' harray
        by_cases hliteral : m.key = dataKey
        · have hraw := extractData_object hbody (hfind hliteral) (rowsText_head hdata)
          refine ⟨m.value, hraw, decodeRows_eq_ok.mpr ⟨m.value, extractData_extracted hraw, ?_⟩⟩
          exact ⟨[], m.value, [], Ws.nil, hdata.extend lenient_extends_rfc8259, Ws.nil, by simp⟩
        · exact absurd hraw' (hnone hliteral _)
  | positional hbody hmeta =>
      have hbare : extractData body = .ok (skipWs body) :=
        extractData_eq_ok.mpr ((extractDataArray_eq_ok _).mpr (Or.inl ⟨rfl, by rw [hbody]; rfl⟩))
      constructor
      · rintro ⟨raw, hraw, hrows⟩
        obtain rfl := Except.ok.inj (hbare.symm.trans hraw)
        obtain ⟨raw', hraw', htext⟩ := decodeRows_eq_ok.mp hrows
        obtain rfl := Except.ok.inj ((extractData_extracted hraw).symm.trans hraw')
        rw [hbody] at htext
        exact absurd htext (not_rowsText_positional hmeta)
      · rintro ⟨ms, m', ⟨w, t, w', hw, ht, hw', rfl⟩, -⟩
        rw [ht.starts.skipWs hw] at hbody
        cases ht with
        | empty => cases hbody
        | members => cases hbody

/-! ## The raw slices along a run -/

/-- The raw slices are the inline slice and those of the fetched partitions. -/
def HoldsRaw (L : Ledger) (rawPartitions : List (List UInt8)) : Prop :=
  ∃ raws, L.fetched.map (fun f ↦ extractData f.2) = raws.map .ok ∧
    rawPartitions = inlinePartitions L.accepted ++ raws

theorem HoldsRaw.accept (L : Ledger) (body : List UInt8) :
    HoldsRaw { L with accepted := body, fetched := [] } (inlinePartitions body) :=
  ⟨[], rfl, (List.append_nil _).symm⟩

theorem HoldsRaw.append {L : Ledger} {rawPartitions : List (List UInt8)}
    (h : HoldsRaw L rawPartitions) {n : Nat} {body raw : List UInt8}
    (hraw : extractData body = .ok raw) :
    HoldsRaw { L with fetched := L.fetched ++ [(n, body)] } (rawPartitions ++ [raw]) := by
  obtain ⟨raws, hraws, rfl⟩ := h
  exact ⟨raws ++ [raw], by simp [hraws, hraw], by simp⟩

/-- A call that drains nothing. -/
def Undrained (_ : StatementMachine) (call : Call) : Prop :=
  call ≠ .drainRows ∧ call ≠ .drainRawPartitions

/-- Nothing has been drained, and an assembling machine holds the raw slices. -/
structure TracksRaw (L : Ledger) (p : Phase) (drained : Nat) : Prop where
  drained : drained = 0
  handedOut : L.handedOut = []
  assembling : ∀ a, p = .assembling a → HoldsRaw L a.rawPartitions

section TracksRaw

variable {serde : Serde} {L : Ledger} {p p' : Phase} {d d' : Nat} {call : Call} {reply : Reply}

theorem TracksRaw.done (h : TracksRaw L p d) {L' : Ledger} (hout : L'.handedOut = L.handedOut) :
    TracksRaw L' .done d where
  drained := h.drained
  handedOut := hout.trans h.handedOut
  assembling := by simp

theorem TracksRaw.steady (h : TracksRaw L p d) : ¬ Reopens serde p d call := by
  rintro ⟨-, hne, -⟩
  exact hne h.drained

theorem Transition.tracksRaw (h : Transition serde p d call reply p' d') (ht : TracksRaw L p d)
    (hrows : call ≠ .drainRows) (hraw : call ≠ .drainRawPartitions) :
    TracksRaw (L.record (call, reply)) p' d' := by
  cases h with
  | refused _ hp =>
      rw [Ledger.record_error]
      rcases hp with rfl | rfl
      · exact ht
      · exact ht.done rfl
  | pollAgain hp hcall hcls hstatus =>
      rw [Ledger.record_other hcall (by rcases hcls with rfl | rfl <;> simp)]
      exact ht
  | timedOut hp hcall hfailure =>
      rw [Ledger.record_other hcall (by simp)]
      exact ht.done rfl
  | failed hp hcall hfailure =>
      rw [Ledger.record_other hcall (by simp)]
      exact ht.done rfl
  | complete hp hcall hrs hsingle =>
      rw [Ledger.record_completed hcall]
      exact ht.done rfl
  | assemble hp hcall hrs hseveral =>
      rw [Ledger.record_completed hcall]
      refine ⟨ht.drained, ht.handedOut, ?_⟩
      rintro a ha
      obtain rfl := Phase.assembling.inj ha
      exact .accept L _
  | lastPartition => exact ht.done rfl
  | nextPartition htakes hnext =>
      refine ⟨ht.drained, ht.handedOut, ?_⟩
      rintro a' ha'
      obtain rfl := Phase.assembling.inj ha'
      exact (ht.assembling _ rfl).append htakes.extracted
  | drainRows => exact absurd rfl hrows
  | drainRawPartitions => exact absurd rfl hraw
  | drainNoRows => exact absurd rfl hrows
  | drainNoRawPartitions => exact absurd rfl hraw
  | completeEarly => exact ht.done rfl
  | notEarly => exact ht.done rfl

/-- A reply that hands out the result of a single statement. -/
def Completes (reply : Reply) (done : CompletedStatement) : Prop :=
  reply = .progress (.ok (.complete done)) ∧ done.resultSet.isMultiStatement = false ∨
    reply = .completed (.ok done)

/-- The completed statement has the raw slices of the ledger. -/
theorem Transition.holdsRaw {done : CompletedStatement}
    (h : Transition serde p d call reply p' d') (ht : TracksRaw L p d)
    (hdone : Completes reply done) : HoldsRaw (L.record (call, reply)) done.rawPartitions := by
  rcases hdone with ⟨rfl, -⟩ | rfl
  · cases h with
    | complete hp hcall hrs hcase =>
        rw [Ledger.record_completed hcall]
        exact .accept L _
    | lastPartition htakes hlast hnumRows =>
        exact (ht.assembling _ rfl).append htakes.extracted
  · cases h with
    | completeEarly => exact ht.assembling _ rfl

/-- The completed statement has the rows of the ledger's partitions. -/
theorem Transition.assembled {done : CompletedStatement}
    (h : Transition serde p d call reply p' d') (ht : Tracks serde L p d)
    (hre : ¬ Reopens serde p d call) (hdone : Completes reply done) :
    Assembled serde (L.record (call, reply)) done.resultSet done.rows done.fetchedPartitions := by
  rcases hdone with ⟨rfl, hsingle⟩ | rfl
  · have hcomplete := h.complete_of_tracks ht hre hsingle
    rw [hcomplete.fetched]
    exact hcomplete.assembled
  · exact (h.cutShort_of_tracks ht).assembled

end TracksRaw

/-- The raw partitions and the rows are the same data: entry `i` is the slice of
body `i`, and it decodes to part `i` of the rows. -/
structure RawAgrees (serde : Serde) (L : Ledger) (done : CompletedStatement) : Prop where
  exists_parts : ∃ parts, L.Partitions serde done.resultSet parts ∧
    parts.length = done.fetchedPartitions ∧ done.rows = parts.flatten ∧
    (L.accepted :: L.fetched.map Prod.snd).map extractData = done.rawPartitions.map .ok ∧
    done.rawPartitions.map decodeRows = parts.map .ok

/-- An extracted slice is not empty. -/
theorem inlinePartitions_ok {body raw : List UInt8} {rows : List Row}
    (h : extractData body = .ok raw) (hrows : decodeRows raw = .ok rows) :
    inlinePartitions body = [raw] := by
  have hinline : inlineRaw body = raw := by rw [inlineRaw, h]
  have hne : raw ≠ [] := by
    rintro rfl
    cases hrows
  simp [inlinePartitions, hinline, hne]

/-- Slices decode to what the bodies they were extracted from decode to. -/
theorem map_decodeRows_extracted {bodies raws : List (List UInt8)} {parts : List (List Row)}
    (hraws : bodies.map extractData = raws.map .ok) (hparts : bodies.map decodeRows = parts.map .ok) :
    raws.map decodeRows = parts.map .ok := by
  induction bodies generalizing raws parts with
  | nil =>
      obtain rfl : raws = [] := by simpa using hraws
      exact hparts
  | cons body bodies ih =>
      cases raws with
      | nil => simp at hraws
      | cons raw raws =>
          cases parts with
          | nil => simp at hparts
          | cons part parts =>
              obtain ⟨hraw, hraws⟩ := List.cons.inj hraws
              obtain ⟨hpart, hparts⟩ := List.cons.inj hparts
              exact congrArg₂ List.cons ((decodeRows_extracted hraw).mpr hpart) (ih hraws hparts)

theorem HoldsRaw.agrees_iff {serde : Serde} (hserde : serde.ParsesResultSets) {L : Ledger}
    {done : CompletedStatement} (hraw : HoldsRaw L done.rawPartitions)
    (hassembled : Assembled serde L done.resultSet done.rows done.fetchedPartitions)
    (hout : L.handedOut = []) : RawAgrees serde L done ↔ LiteralDataKey L.accepted := by
  obtain ⟨parts, ⟨haccepted, hnumbers, decoded, hdecoded, rfl⟩, hlen, hrows, -⟩ :=
    hassembled.exists_parts
  rw [← extracted_iff hserde haccepted]
  constructor
  · rintro ⟨parts, ⟨-, -, decoded, -, rfl⟩, -, -, hslices, hparts⟩
    cases hdone : done.rawPartitions with
    | nil => simp [hdone] at hslices
    | cons raw raws =>
        rw [hdone] at hslices hparts
        exact ⟨raw, (List.cons.inj hslices).1, (List.cons.inj hparts).1⟩
  · rintro ⟨raw, hok, hinline⟩
    obtain ⟨raws, hraws, heq⟩ := hraw
    rw [inlinePartitions_ok hok hinline, List.singleton_append] at heq
    refine ⟨_, ⟨haccepted, hnumbers, decoded, hdecoded, rfl⟩, hlen, ?_, ?_, ?_⟩
    · rw [← hrows, hout, List.nil_append]
    · simp [heq, hok, ← hraws, Function.comp_def]
    · have hslices : (L.fetched.map Prod.snd).map extractData = raws.map .ok := by
        rw [List.map_map]
        exact hraws
      have hparts : (L.fetched.map Prod.snd).map decodeRows = decoded.map .ok := by
        rw [List.map_map]
        exact hdecoded
      rw [heq, List.map_cons, List.map_cons, hinline, map_decodeRows_extracted hslices hparts]

section Runs

variable {serde : Serde} {plan : PollPlan}

theorem tracksRaw_of_runs {trace : List (Call × Reply)} {m : StatementMachine}
    (h : Runs serde plan Undrained trace m) :
    Tracks serde (ledger trace) m.phase m.drainedRows ∧
      TracksRaw (ledger trace) m.phase m.drainedRows := by
  refine h.invariant (I := fun trace m ↦ Tracks serde (ledger trace) m.phase m.drainedRows ∧
    TracksRaw (ledger trace) m.phase m.drainedRows) ?_ ?_
  · exact ⟨tracks_of_runs .nil, ⟨rfl, rfl, by simp [StatementMachine.new]⟩⟩
  · rintro trace s call ⟨htracks, hraw⟩ hundrained
    rw [ledger_snoc]
    have htransition := step_transition serde s call
    exact ⟨htransition.tracks htracks hraw.steady,
      htransition.tracksRaw hraw hundrained.1 hundrained.2⟩

/-- In a run that drains nothing, the raw partitions of a completed statement
agree with its rows exactly when the `200` accepted last spells its key `data`. -/
theorem rawAgrees_iff_of_runs (hserde : serde.ParsesResultSets) {trace : List (Call × Reply)}
    {call : Call} {reply : Reply} {m : StatementMachine}
    (h : Runs serde plan Undrained (trace ++ [(call, reply)]) m) {done : CompletedStatement}
    (hdone : Completes reply done) :
    RawAgrees serde (ledger (trace ++ [(call, reply)])) done ↔
      LiteralDataKey (ledger (trace ++ [(call, reply)])).accepted := by
  obtain ⟨s, hrun, hundrained, hstep⟩ := Mealy.Runs.of_snoc h
  obtain ⟨htracks, hraw⟩ := tracksRaw_of_runs hrun
  have htransition := step_transition serde s call
  rw [hstep] at htransition
  rw [ledger_snoc]
  exact (htransition.holdsRaw hraw hdone).agrees_iff hserde
    (htransition.assembled htracks hraw.steady hdone)
    (htransition.tracksRaw hraw hundrained.1 hundrained.2).handedOut

end Runs

/-! ## An escaped key -/

theorem quoted_of_plain {k : List UInt8} (h : ∀ b ∈ k, b ≠ 0x22 ∧ b ≠ 0x5c) : Quoted k := by
  induction k with
  | nil => exact .nil
  | cons b k ih =>
      obtain ⟨⟨hquote, hescape⟩, hk⟩ := List.forall_mem_cons.mp h
      exact .raw hquote hescape (ih hk)

theorem IsDataKey.head {k : List UInt8} (h : IsDataKey k) :
    k.head? = some 0x64 ∨ k.head? = some 0x5c := by
  unfold IsDataKey at h
  generalize hcs : ['d', 'a', 't', 'a'] = cs at h
  cases h with
  | nil => cases hcs
  | raw h ht =>
      obtain ⟨rfl, -⟩ := List.cons.inj hcs
      exact Or.inl rfl
  | escape he ht =>
      obtain ⟨b, e, rfl⟩ := he.eq_cons
      exact Or.inr rfl

/-- A member without whitespace. -/
def memberText (k v : List UInt8) : List UInt8 := 0x22 :: (k ++ 0x22 :: 0x3a :: v)

theorem memberText_text {k v : List UInt8} (hk : Quoted k) (hv : Derives .value v) :
    MemberText (memberText k v) ⟨k, v⟩ :=
  .mk hk Ws.nil Ws.nil hv

def metaKey : List UInt8 := Utf8.encode "resultSetMetaData".toList

def codeKey : List UInt8 := Utf8.encode "code".toList

def handleKey : List UInt8 := Utf8.encode "statementHandle".toList

def numRowsKey : List UInt8 := Utf8.encode "numRows".toList

def formatKey : List UInt8 := Utf8.encode "format".toList

def rowTypeKey : List UInt8 := Utf8.encode "rowType".toList

def quoted (k : List UInt8) : List UInt8 := 0x22 :: (k ++ [0x22])

/-- `[["a"]]` -/
def rowsValue : List UInt8 := [0x5b, 0x5b, 0x22, 0x61, 0x22, 0x5d, 0x5d]

/-- `{"numRows":1,"format":"jsonv2","rowType":[]}` -/
def metaValue : List UInt8 :=
  0x7b :: (memberText numRowsKey [0x31] ++ 0x2c :: (memberText formatKey
    (quoted (Utf8.encode "jsonv2".toList)) ++ 0x2c :: (memberText rowTypeKey [0x5b, 0x5d] ++
      [0x7d])))

/-- A result set of one row, with the data key spelled as given. -/
def resultBody (key : List UInt8) : List UInt8 :=
  0x7b :: (memberText metaKey metaValue ++ 0x2c :: (memberText key rowsValue ++
    0x2c :: (memberText codeKey (quoted (Utf8.encode "090001".toList)) ++
      0x2c :: (memberText handleKey (quoted [0x68]) ++ [0x7d]))))

/-- `d\u0061ta` -/
def escapedKey : List UInt8 := [0x64, 0x5c, 0x75, 0x30, 0x30, 0x36, 0x31, 0x74, 0x61]

theorem isDataKey_escapedKey : IsDataKey escapedKey := by
  have hraw : ∀ {c : Char} {t : List UInt8} {cs : List Char}, rfc8259.raw c →
      BodyText rfc8259 t cs → BodyText rfc8259 (String.utf8EncodeChar c ++ t) (c :: cs) := .raw
  have hescape : EscapeText rfc8259 [0x5c, 0x75, 0x30, 0x30, 0x36, 0x31] 'a' :=
    .unicode (n := 0x61) rfl (by decide) rfl rfl
  have htail := hraw (c := 't') (by decide) (hraw (c := 'a') (by decide) .nil)
  exact hraw (c := 'd') (by decide) (.escape hescape htail)

theorem quoted_derives {k : List UInt8} (hk : Quoted k) : Derives .value (quoted k) := .string hk

theorem metaValue_derives : Derives .value metaValue := by
  have hnumRows : Quoted numRowsKey := quoted_of_plain (by decide +kernel)
  have hformat : Quoted formatKey := quoted_of_plain (by decide +kernel)
  have hrowType : Quoted rowTypeKey := quoted_of_plain (by decide +kernel)
  have hjsonv2 : Quoted (Utf8.encode "jsonv2".toList) := quoted_of_plain (by decide +kernel)
  have hrows := Derives.lastMember (.member hrowType Ws.nil Ws.nil (.emptyArray Ws.nil)) Ws.nil
  have hfmt := Derives.members (.member hformat Ws.nil Ws.nil (quoted_derives hjsonv2)) Ws.nil
    Ws.nil hrows
  have hall := Derives.members (.member hnumRows Ws.nil Ws.nil
    (.scalar (t := [0x31]) (by simp) (by decide +kernel))) Ws.nil Ws.nil hfmt
  have hvalue := Derives.object Ws.nil hall
  simpa [metaValue, memberText] using hvalue

theorem rowsValue_text : RowsText rfc8259 rowsValue [[some ['a']]] := by
  have hbody : BodyText rfc8259 [0x61] ['a'] := .raw (c := 'a') (by decide) .nil
  have hcell : CellText rfc8259 [0x22, 0x61, 0x22] (some ['a']) := .string ⟨_, rfl, hbody⟩
  have hrow : ArrayText (CellText rfc8259) [0x5b, 0x22, 0x61, 0x22, 0x5d] [some ['a']] :=
    .elements (w := []) Ws.nil (.one (w := []) hcell Ws.nil)
  exact .elements (w := []) Ws.nil (.one (w := []) hrow Ws.nil)

theorem rowsValue_derives : Derives .value rowsValue := by
  have hcell : Derives .value [0x22, 0x61, 0x22] := .string (t := [0x61]) (quoted_of_plain (by decide +kernel))
  have hrow : Derives .value [0x5b, 0x22, 0x61, 0x22, 0x5d] :=
    .array (w := []) Ws.nil (.lastElement (w := []) hcell Ws.nil)
  exact .array (w := []) Ws.nil (.lastElement (w := []) hrow Ws.nil)

def resultOfBody : ResultSet := ⟨⟨1, []⟩, [[some ['a']]], "090001", ⟨"h"⟩, none⟩

theorem resultBody_text {key : List UInt8} (hkey : IsDataKey key) (hquoted : Quoted key) :
    ResultSetText (resultBody key) resultOfBody := by
  have hmeta : Quoted metaKey := quoted_of_plain (by decide +kernel)
  have hcode : Quoted codeKey := quoted_of_plain (by decide +kernel)
  have hhandle : Quoted handleKey := quoted_of_plain (by decide +kernel)
  have hsuccess : Quoted (Utf8.encode "090001".toList) := quoted_of_plain (by decide +kernel)
  have hh : Quoted [0x68] := quoted_of_plain (by decide +kernel)
  have h₁ := Elements.one (memberText_text hhandle (quoted_derives hh)) Ws.nil
  have h₂ := Elements.cons (memberText_text hcode (quoted_derives hsuccess)) Ws.nil Ws.nil h₁
  have h₃ := Elements.cons (memberText_text hquoted rowsValue_derives) Ws.nil Ws.nil h₂
  have h₄ := Elements.cons (memberText_text hmeta metaValue_derives) Ws.nil Ws.nil h₃
  have hobject := ObjectText.members Ws.nil h₄
  refine @ResultSetText.object _ _ [⟨metaKey, metaValue⟩] [⟨codeKey,
    quoted (Utf8.encode "090001".toList)⟩, ⟨handleKey, quoted [0x68]⟩] ⟨key, rowsValue⟩
    ⟨[], _, [], Ws.nil, hobject, Ws.nil, ?_⟩ hkey ?_ rowsValue_text
  · simp [resultBody, memberText]
  · have hother : ∀ k : List UInt8, k.head? ≠ some 0x64 → k.head? ≠ some 0x5c → ¬ IsDataKey k :=
      fun k hd he hk ↦ hk.head.elim hd he
    simp only [List.singleton_append, List.forall_mem_cons]
    exact ⟨hother _ (by decide +kernel) (by decide +kernel),
      hother _ (by decide +kernel) (by decide +kernel),
      hother _ (by decide +kernel) (by decide +kernel), by simp⟩

/-- A parser that knows one body. -/
def bodySerde (key : List UInt8) : Serde where
  resultSet body :=
    if body = resultBody key then .ok resultOfBody else .error "not a result set"
  queryStatus _ := .error "not a status"
  queryFailure _ := .error "not a failure"

theorem bodySerde_body (key : List UInt8) :
    (bodySerde key).resultSet (resultBody key) = .ok resultOfBody := by
  simp [bodySerde]

theorem bodySerde_parses {key : List UInt8} (hkey : IsDataKey key) (hquoted : Quoted key) :
    (bodySerde key).ParsesResultSets := by
  intro body rs h
  dsimp only [bodySerde] at h
  split at h
  next hbody =>
    obtain rfl := Except.ok.inj h
    rw [hbody]
    exact resultBody_text hkey hquoted
  next => cases h

def statementOfBody (key : List UInt8) : CompletedStatement :=
  ⟨⟨"h"⟩, resultOfBody, resultOfBody.data, inlinePartitions (resultBody key), 1, 1⟩

/-- The one-partition `200` completes on submit. -/
theorem bodySerde_runs (key : List UInt8) :
    Runs (bodySerde key) .default Undrained ([] ++ [(.onSubmit .completed (resultBody key),
      .progress (.ok (.complete (statementOfBody key))))]) ⟨.default, 0, .done, 0⟩ := by
  have hopen : (StatementMachine.new .default).phase ≠ .done := by simp [StatementMachine.new]
  have hsingle : SinglePartition resultOfBody :=
    ⟨by decide, by decide, by decide, by decide, by decide⟩
  refine Mealy.Runs.nil.snoc_eq ⟨by simp, by simp⟩ ?_
  rw [step, StatementMachine.onSubmit_completed hopen (bodySerde_body key),
    StatementMachine.enterTerminalResult_single hsingle]
  rfl

/-- With the key `data` the raw partition decodes to the row. -/
theorem rawAgrees_iff_of_runs_literal :
    RawAgrees (bodySerde dataKey) (ledger [(.onSubmit .completed (resultBody dataKey),
      .progress (.ok (.complete (statementOfBody dataKey))))]) (statementOfBody dataKey) := by
  have hquoted : Quoted dataKey := quoted_of_plain (by decide +kernel)
  have hserde := bodySerde_parses isDataKey_dataKey hquoted
  refine (rawAgrees_iff_of_runs hserde (bodySerde_runs dataKey) (Or.inl ⟨rfl, rfl⟩)).mpr ?_
  refine (extracted_iff hserde (bodySerde_body dataKey)).mp ⟨rowsValue, ?_, ?_⟩
  · decide +kernel
  · decide +kernel

/-- The key `d\u0061ta` reads as `data`, and the raw partition is lost. -/
theorem not_rawAgrees_of_runs :
    (bodySerde escapedKey).ParsesResultSets ∧
      ∃ trace m, Runs (bodySerde escapedKey) .default Undrained
          (trace ++ [(.onSubmit .completed (resultBody escapedKey),
            .progress (.ok (.complete (statementOfBody escapedKey))))]) m ∧
        (statementOfBody escapedKey).resultSet.isMultiStatement = false ∧
        ¬ RawAgrees (bodySerde escapedKey)
          (ledger (trace ++ [(.onSubmit .completed (resultBody escapedKey),
            .progress (.ok (.complete (statementOfBody escapedKey))))]))
          (statementOfBody escapedKey) := by
  have hquoted : Quoted escapedKey :=
    .raw (by decide) (by decide) (.escape (quoted_of_plain (by decide +kernel)))
  refine ⟨bodySerde_parses isDataKey_escapedKey hquoted, [], _, bodySerde_runs escapedKey, rfl, ?_⟩
  rintro ⟨parts, -, hlen, -, -, hdecoded⟩
  have hraw : inlinePartitions (resultBody escapedKey) = [] := by decide +kernel
  have hparts : parts = [] := by simpa [statementOfBody, hraw] using hdecoded.symm
  simp [hparts, statementOfBody] at hlen

end FrankenSnowflake.SqlApi
