import FrankenSnowflake.Core.Endpoint
import FrankenSnowflake.Foundation.Digits
import FrankenSnowflake.Foundation.Uri
import FrankenSnowflake.Http.Transport

/-!
# The URLs of statement routes

A statement handle is percent-encoded into one segment of a path.  Every delimiter is
escaped, but the dots of a segment are not, and a reader of the URL takes the
segments `.` and `..` out of its path.
-/

namespace FrankenSnowflake.Http

open Foundation Uri

/-! ## Endpoints -/

/-- A base URL that `validate_endpoint` has accepted. -/
structure SnowflakeEndpoint where
  baseUrl : Text
  host : Text
  accepted : ∃ raw, Endpoint.validateEndpoint raw = .ok (.ok (baseUrl, host))

/-- The absolute URL of a route. -/
def SnowflakeEndpoint.routeUrl (e : SnowflakeEndpoint) (route : TransportRoute) : Text :=
  e.baseUrl ++ route.pathAndQuery

theorem of_validateEndpoint {raw baseUrl host : Text}
    (h : Endpoint.validateEndpoint raw = .ok (.ok (baseUrl, host))) :
    baseUrl = Endpoint.https ++ host ∧ Endpoint.isCanonicalHost host = true := by
  unfold Endpoint.validateEndpoint at h
  dsimp only at h
  split_ifs at h with hraw
  · cases h
  obtain ⟨stripped, -, h⟩ := bind_eq_ok_iff.mp h
  cases stripped with
  | none => cases h
  | some rest =>
      dsimp only at h
      split_ifs at h with hmarks hpath hempty hcanonical
      · cases h
      · cases h
      · cases h
      · obtain ⟨rfl, rfl⟩ := Prod.mk.inj (Except.ok.inj (Except.ok.inj h))
        exact ⟨rfl, hcanonical⟩
      · cases h

theorem notMem_of_isHostChar {c : Char} (h : Endpoint.isHostChar c = true) :
    c ∉ ['/', '?', '#'] := by
  intro hc
  simp only [List.mem_cons, List.not_mem_nil, or_false] at hc
  rcases hc with rfl | rfl | rfl <;> exact absurd h (by decide)

/-! ## Encoded components -/

/-- The escape of one byte, if it needs one. -/
def escapeByte (byte : UInt8) : Text :=
  if isQueryUnreserved byte then [Char.ofNat byte.toNat]
  else ['%', hexDigit (byte.toNat / 16), hexDigit (byte.toNat % 16)]

theorem percentEncode_eq (value : Text) :
    percentEncodeQueryComponent value = (Utf8.encode value).flatMap escapeByte := rfl

theorem hexValue_hexDigit : ∀ n < 16, hexValue (hexDigit n) = some n := by decide

theorem unreserved_of_lt : ∀ n < 256, isQueryUnreserved (UInt8.ofNat n) = true →
    UInt8.ofNat n < 0x80 ∧ Char.ofNat (UInt8.ofNat n).toNat ≠ '%' := by decide +kernel

theorem ascii_of_unreserved (byte : UInt8) (h : isQueryUnreserved byte = true) :
    byte < 0x80 ∧ Char.ofNat byte.toNat ≠ '%' := by
  have hbyte := unreserved_of_lt byte.toNat byte.toNat_lt
  rw [UInt8.ofNat_toNat] at hbyte
  exact hbyte h

theorem escapeByte_safe_of_lt : ∀ n < 256,
    (escapeByte (UInt8.ofNat n)).all fun c ↦ c ∉ ['/', '?', '#', '&', '='] := by decide +kernel

theorem percentDecode_percentEncode (value : Text) :
    percentDecode (percentEncodeQueryComponent value) = Utf8.encode value :=
  percentDecode_flatMap ascii_of_unreserved hexValue_hexDigit (Utf8.encode value)

theorem percentEncode_safe {value : Text} {c : Char}
    (hc : c ∈ percentEncodeQueryComponent value) : c ∉ ['/', '?', '#', '&', '='] := by
  obtain ⟨byte, -, hc⟩ := List.mem_flatMap.mp hc
  have hsafe := escapeByte_safe_of_lt byte.toNat byte.toNat_lt
  rw [UInt8.ofNat_toNat] at hsafe
  simpa using List.all_eq_true.mp hsafe c hc

theorem percentEncode_injective : Function.Injective percentEncodeQueryComponent :=
  percentEscape_injective ascii_of_unreserved hexValue_hexDigit

/-! ## Statement routes -/

/-- A route that addresses one statement. -/
inductive StatementRoute where
  | poll (handle : Text)
  | partition (handle : Text) (index : Nat)
  | cancel (handle : Text)
deriving DecidableEq, Repr

namespace StatementRoute

def toRoute : StatementRoute → TransportRoute
  | poll handle => .poll handle
  | partition handle index => .partition handle index
  | cancel handle => .cancel handle

def handle : StatementRoute → Text
  | poll handle | partition handle _ | cancel handle => handle

/-- The segments behind the one of the handle. -/
def action : StatementRoute → List Text
  | poll _ | partition .. => []
  | cancel _ => ["cancel".toList]

/-- The pairs of the query. -/
def pairs : StatementRoute → List (Text × Text)
  | poll _ | cancel _ => []
  | partition _ index => [("partition".toList, Nat.toDigits 10 index)]

end StatementRoute

/-- The path of the statements API. -/
def statementsSegments : List Text := ["api".toList, "v2".toList, "statements".toList]

/-- The URL of a host, segments and pairs, as a reader sees it. -/
def located (host : Text) (segments : List Text) (pairs : List (Text × Text)) : Normal where
  scheme := some "https".toList
  authority := some host
  segments := segments.map Utf8.encode
  query := pairs.map fun pair ↦ (Utf8.encode pair.1, Utf8.encode pair.2)
  fragment := none

/-- The URL that is built for a statement addresses it. -/
def Addresses (e : SnowflakeEndpoint) (r : StatementRoute) : Prop :=
  r.handle ≠ [] ∧ Uri.normalize (e.routeUrl r.toRoute) =
    located e.host (statementsSegments ++ r.handle :: r.action) r.pairs

/-! ## Reading URLs -/

/-- A query of pairs. -/
def queryOf : List (Text × Text) → Option Text
  | [] => none
  | pair :: pairs => some (['&'].intercalate ((pair :: pairs).map renderPair))

theorem renderPair_safe {pair : Text × Text} {c : Char} (hc : c ∈ renderPair pair) :
    c ∉ ['/', '?', '#', '&'] := by
  have hsub : ∀ {c}, c ∉ ['/', '?', '#', '&', '='] → c ∉ ['/', '?', '#', '&'] := by
    intro c hc hmem
    exact hc (by simp only [List.mem_cons] at hmem ⊢; tauto)
  unfold renderPair at hc
  rcases List.mem_append.mp hc with hc | hc
  · exact hsub (percentEncode_safe hc)
  · rcases List.mem_cons.mp hc with rfl | hc
    · decide
    · exact hsub (percentEncode_safe hc)

theorem splitPair_renderPair (pair : Text × Text) : splitPair (renderPair pair) =
    (percentEncodeQueryComponent pair.1, percentEncodeQueryComponent pair.2) :=
  splitPair_append fun h ↦ percentEncode_safe h (by decide)

theorem mem_of_mem_intercalate {c : Char} {separator : Text} {parts : List Text}
    (hc : c ∈ separator.intercalate parts) : c ∈ separator ∨ ∃ part ∈ parts, c ∈ part := by
  induction parts with
  | nil => cases hc
  | cons part parts ih =>
      cases parts with
      | nil =>
          rw [List.intercalate_singleton] at hc
          exact .inr ⟨part, List.mem_cons_self, hc⟩
      | cons next parts =>
          rw [List.intercalate_cons_cons, List.mem_append, List.mem_append] at hc
          rcases hc with (hc | hc) | hc
          · exact .inr ⟨part, List.mem_cons_self, hc⟩
          · exact .inl hc
          · exact (ih hc).imp_right fun ⟨p, hp, hc⟩ ↦ ⟨p, List.mem_cons_of_mem _ hp, hc⟩

theorem queryOf_safe {pairs : List (Text × Text)} : ∀ q ∈ queryOf pairs, '#' ∉ q := by
  intro q hq hc
  cases pairs with
  | nil => cases hq
  | cons pair pairs =>
      obtain rfl := Option.some.inj hq
      rcases mem_of_mem_intercalate hc with hc | ⟨part, hpart, hc⟩
      · exact absurd hc (by decide)
      · obtain ⟨p, -, rfl⟩ := List.mem_map.mp hpart
        exact renderPair_safe hc (by decide)

/-- The pairs of a query are read back. -/
theorem decode_queryOf (pairs : List (Text × Text)) :
    ((queryOf pairs).elim [] fun q ↦ q.splitOn '&').map (fun pair ↦
      (percentDecode (splitPair pair).1, percentDecode (splitPair pair).2)) =
      pairs.map fun pair ↦ (Utf8.encode pair.1, Utf8.encode pair.2) := by
  cases pairs with
  | nil => rfl
  | cons pair pairs =>
      have hsplit : (['&'].intercalate ((pair :: pairs).map renderPair)).splitOn '&' =
          (pair :: pairs).map renderPair := by
        refine List.splitOn_intercalate _ ?_ (by simp)
        intro part hpart hc
        obtain ⟨p, -, rfl⟩ := List.mem_map.mp hpart
        exact renderPair_safe hc (by decide)
      rw [queryOf, Option.elim_some, hsplit, List.map_map]
      refine List.map_congr_left fun p _ ↦ ?_
      rw [Function.comp_apply, splitPair_renderPair, percentDecode_percentEncode,
        percentDecode_percentEncode]

/-- The URL of a path of encoded segments and a query of encoded pairs. -/
theorem normalize_url (e : SnowflakeEndpoint) {segments : List Text} (pairs : List (Text × Text))
    (hne : segments ≠ []) :
    Uri.normalize (e.baseUrl ++
      ('/' :: ['/'].intercalate (segments.map percentEncodeQueryComponent) ++
      queryPart (queryOf pairs))) =
      { scheme := some "https".toList
        authority := some e.host
        segments := (removeDotSegments (segments.map percentEncodeQueryComponent)).map
          percentDecode
        query := pairs.map fun pair ↦ (Utf8.encode pair.1, Utf8.encode pair.2)
        fragment := none } := by
  obtain ⟨raw, hraw⟩ := e.accepted
  obtain ⟨hbase, hhost⟩ := of_validateEndpoint hraw
  have hauthority : ∀ c ∈ e.host, c ∉ ['/', '?', '#'] := by
    intro c hc
    simp only [Endpoint.isCanonicalHost, decide_eq_true_eq] at hhost
    exact notMem_of_isHostChar (List.all_eq_true.mp hhost.1 c hc)
  have hpath : ∀ c ∈ ['/'].intercalate (segments.map percentEncodeQueryComponent),
      c ∉ ['?', '#'] := by
    intro c hc hmark
    rcases mem_of_mem_intercalate hc with hc | ⟨part, hpart, hc⟩
    · rw [List.mem_singleton] at hc
      subst hc
      exact absurd hmark (by decide)
    · obtain ⟨segment, -, rfl⟩ := List.mem_map.mp hpart
      refine percentEncode_safe hc ?_
      simp only [List.mem_cons] at hmark ⊢
      tauto
  have hsplit : (['/'].intercalate (segments.map percentEncodeQueryComponent)).splitOn '/' =
      segments.map percentEncodeQueryComponent := by
    refine List.splitOn_intercalate _ ?_ (by simpa using hne)
    intro part hpart hc
    obtain ⟨segment, -, rfl⟩ := List.mem_map.mp hpart
    exact percentEncode_safe hc (by decide)
  have hscheme : ∀ c ∈ "https".toList, c ∉ [':', '/', '?', '#'] := by
    have hall : ("https".toList.all fun c ↦ c ∉ [':', '/', '?', '#']) = true := by decide +kernel
    exact fun c hc ↦ of_decide_eq_true (List.all_eq_true.mp hall c hc)
  have hquery : ∀ q ∈ queryOf pairs, '#' ∉ q := queryOf_safe
  have hparse := parse_eq (by decide) hscheme hauthority hpath hquery
  have hurl : e.baseUrl ++ ('/' :: ['/'].intercalate (segments.map percentEncodeQueryComponent) ++
      queryPart (queryOf pairs)) = "https".toList ++ ':' :: '/' :: '/' :: (e.host ++
        ('/' :: ['/'].intercalate (segments.map percentEncodeQueryComponent) ++
          queryPart (queryOf pairs))) := by
    rw [hbase, List.append_assoc]
    rfl
  have htail : segments.map percentEncodeQueryComponent = Uri.segments
      ('/' :: ['/'].intercalate (segments.map percentEncodeQueryComponent)) := by
    rw [Uri.segments, List.splitOn_cons_eq_if_modifyHead, if_pos (by rfl), List.tail_cons, hsplit]
  rw [Uri.normalize, hurl, hparse, Reference.normal, decode_queryOf, ← htail]

/-! ## The URLs that are built -/

theorem escape_digit {c : Char} (hc : c.isDigit) :
    (String.utf8EncodeChar c).flatMap escapeByte = [c] := by
  obtain ⟨hlow, hhigh⟩ := Char.isDigit_iff_toNat.mp hc
  have hall : ∀ n < 58, 48 ≤ n →
      (String.utf8EncodeChar (Char.ofNat n)).flatMap escapeByte = [Char.ofNat n] := by decide
  have hchar := hall c.toNat (Nat.lt_succ_of_le hhigh) hlow
  rwa [Char.ofNat_toNat] at hchar

theorem percentEncode_digits {digits : Text} (h : ∀ c ∈ digits, c.isDigit) :
    percentEncodeQueryComponent digits = digits := by
  rw [percentEncode_eq]
  induction digits with
  | nil => rfl
  | cons c digits ih =>
      obtain ⟨hc, hdigits⟩ := List.forall_mem_cons.mp h
      rw [Utf8.encode_cons, List.flatMap_append, escape_digit hc, ih hdigits]
      rfl

theorem percentEncode_partition :
    percentEncodeQueryComponent "partition".toList = "partition".toList := by decide

theorem percentEncode_requestId :
    percentEncodeQueryComponent "requestId".toList = "requestId".toList := by decide

theorem percentEncode_retry : percentEncodeQueryComponent "retry".toList = "retry".toList := by
  decide

theorem percentEncode_true : percentEncodeQueryComponent "true".toList = "true".toList := by
  decide

theorem percentEncode_cancel : percentEncodeQueryComponent "cancel".toList = "cancel".toList := by
  decide

theorem map_percentEncode_statements :
    statementsSegments.map percentEncodeQueryComponent = statementsSegments := by decide

theorem intercalate_append_cons {separator part : Text} {parts parts' : List Text}
    (h : parts ≠ []) : separator.intercalate (parts ++ part :: parts') =
      separator.intercalate parts ++ (separator ++ separator.intercalate (part :: parts')) := by
  induction parts with
  | nil => exact absurd rfl h
  | cons first parts ih =>
      cases parts with
      | nil => simp [List.intercalate_cons_cons]
      | cons second parts =>
          have hrest := ih (List.cons_ne_nil _ _)
          simp only [List.cons_append, List.intercalate_cons_cons, List.append_assoc] at hrest ⊢
          rw [hrest]

theorem sqlApiStatementsPath_eq :
    sqlApiStatementsPath = '/' :: ['/'].intercalate statementsSegments := by decide

theorem intercalate_statements (handle : Text) (action : List Text) :
    '/' :: ['/'].intercalate ((statementsSegments ++ handle :: action).map
      percentEncodeQueryComponent) =
      sqlApiStatementsPath ++ '/' :: ['/'].intercalate (percentEncodeQueryComponent handle ::
        action.map percentEncodeQueryComponent) := by
  rw [List.map_append, map_percentEncode_statements, List.map_cons,
    intercalate_append_cons (by decide), sqlApiStatementsPath_eq]
  rfl

theorem pathAndQuery_eq (r : StatementRoute) : r.toRoute.pathAndQuery =
    '/' :: ['/'].intercalate ((statementsSegments ++ r.handle :: r.action).map
      percentEncodeQueryComponent) ++ queryPart (queryOf r.pairs) := by
  rw [intercalate_statements]
  cases r with
  | poll handle =>
      have haction : (StatementRoute.poll handle).action.map percentEncodeQueryComponent = [] := rfl
      rw [haction, List.intercalate_singleton]
      exact (List.append_nil _).symm
  | partition handle index =>
      have haction : (StatementRoute.partition handle index).action.map
        percentEncodeQueryComponent = [] := rfl
      have hdigits : percentEncodeQueryComponent (Nat.toDigits 10 index) = Nat.toDigits 10 index :=
        percentEncode_digits fun c hc ↦ Nat.isDigit_of_mem_toDigits (by decide) (by decide) hc
      have hquery : queryPart (queryOf (StatementRoute.partition handle index).pairs) =
          "?partition=".toList ++ Nat.toDigits 10 index := by
        show '?' :: ['&'].intercalate [percentEncodeQueryComponent "partition".toList ++
          '=' :: percentEncodeQueryComponent (Nat.toDigits 10 index)] = _
        rw [List.intercalate_singleton, percentEncode_partition, hdigits]
        rfl
      rw [haction, List.intercalate_singleton, hquery, ← List.append_assoc]
      rfl
  | cancel handle =>
      have haction : (StatementRoute.cancel handle).action.map percentEncodeQueryComponent =
          ["cancel".toList] := congrArg (fun part ↦ [part]) percentEncode_cancel
      rw [haction, List.intercalate_cons_cons, List.intercalate_singleton]
      show _ = _ ++ []
      rw [List.append_nil]
      show sqlApiStatementsPath ++ '/' :: percentEncodeQueryComponent handle ++
        "/cancel".toList = _
      rw [List.append_assoc, List.append_assoc]
      rfl

theorem renderSubmitQuery_eq (query : List (Text × Text)) : renderSubmitQuery query =
    '/' :: ['/'].intercalate (statementsSegments.map percentEncodeQueryComponent) ++
      queryPart (queryOf query) := by
  rw [map_percentEncode_statements, ← sqlApiStatementsPath_eq]
  cases query with
  | nil => exact (List.append_nil _).symm
  | cons pair query =>
      have hjoin : ∀ (pair : Text × Text) (query : List (Text × Text)),
          ['&'].intercalate ((pair :: query).map renderPair) =
            renderPair pair ++ query.flatMap fun pair ↦ '&' :: renderPair pair := by
        intro pair query
        induction query generalizing pair with
        | nil => simp
        | cons next query ih =>
            rw [List.map_cons, List.map_cons, List.intercalate_cons_cons, ← List.map_cons, ih,
              List.flatMap_cons, List.append_assoc]
            rfl
      show sqlApiStatementsPath ++ '?' :: renderPair pair ++
        (query.flatMap fun pair ↦ '&' :: renderPair pair) = sqlApiStatementsPath ++
          '?' :: ['&'].intercalate ((pair :: query).map renderPair)
      rw [hjoin, List.append_assoc]
      rfl

/-- The pairs of a submit that is sent again. -/
def retryPairs (requestId : Text) : List (Text × Text) :=
  [("requestId".toList, requestId), ("retry".toList, "true".toList)]

theorem submitRetry_eq (requestId : Text) :
    (TransportRoute.submitRetry requestId).pathAndQuery = renderSubmitQuery (retryPairs requestId) := by
  show sqlApiStatementsPath ++ "?requestId=".toList ++ percentEncodeQueryComponent requestId ++
    "&retry=true".toList = sqlApiStatementsPath ++ '?' ::
      (percentEncodeQueryComponent "requestId".toList ++ '=' :: percentEncodeQueryComponent requestId) ++
        ('&' :: (percentEncodeQueryComponent "retry".toList ++
          '=' :: percentEncodeQueryComponent "true".toList) ++ [])
  rw [percentEncode_requestId, percentEncode_retry, percentEncode_true]
  simp only [List.append_assoc, List.append_nil]
  rfl

/-! ## Handles that are read as structure -/

theorem percentEncode_dot : percentEncodeQueryComponent ['.'] = ['.'] := by decide

theorem percentEncode_dots : percentEncodeQueryComponent ['.', '.'] = ['.', '.'] := by decide

theorem percentEncode_eq_dot {value : Text} :
    percentEncodeQueryComponent value = ['.'] ↔ value = ['.'] := by
  rw [← percentEncode_dot, percentEncode_injective.eq_iff, percentEncode_dot]

theorem percentEncode_eq_dots {value : Text} :
    percentEncodeQueryComponent value = ['.', '.'] ↔ value = ['.', '.'] := by
  rw [← percentEncode_dots, percentEncode_injective.eq_iff, percentEncode_dots]

theorem map_percentDecode_percentEncode (segments : List Text) :
    (segments.map percentEncodeQueryComponent).map percentDecode = segments.map Utf8.encode := by
  rw [List.map_map]
  exact List.map_congr_left fun segment _ ↦ percentDecode_percentEncode segment

/-- Segments that are no dots are read as they were given. -/
theorem normalize_url_of_plain (e : SnowflakeEndpoint) {segments : List Text}
    (pairs : List (Text × Text)) (hne : segments ≠ [])
    (hplain : ∀ s ∈ segments, s ≠ ['.'] ∧ s ≠ ['.', '.']) :
    Uri.normalize (e.baseUrl ++
      ('/' :: ['/'].intercalate (segments.map percentEncodeQueryComponent) ++
      queryPart (queryOf pairs))) = located e.host segments pairs := by
  rw [normalize_url e pairs hne, removeDotSegments_of_plain, map_percentDecode_percentEncode]
  · rfl
  · intro s hs
    obtain ⟨segment, hsegment, rfl⟩ := List.mem_map.mp hs
    rw [ne_eq, ne_eq, percentEncode_eq_dot, percentEncode_eq_dots]
    exact hplain segment hsegment

theorem normalize_submitWithQuery (e : SnowflakeEndpoint) (query : List (Text × Text)) :
    Uri.normalize (e.routeUrl (.submitWithQuery query)) = located e.host statementsSegments query := by
  show Uri.normalize (e.baseUrl ++ renderSubmitQuery query) = _
  rw [renderSubmitQuery_eq]
  exact normalize_url_of_plain e query (by decide) (by decide)

theorem normalize_submitRetry (e : SnowflakeEndpoint) (requestId : Text) :
    Uri.normalize (e.routeUrl (.submitRetry requestId)) =
      located e.host statementsSegments (retryPairs requestId) := by
  rw [SnowflakeEndpoint.routeUrl, submitRetry_eq]
  exact normalize_submitWithQuery e (retryPairs requestId)

theorem StatementRoute.action_mem (r : StatementRoute) :
    r.action ∈ [[], ["cancel".toList]] := by
  cases r with
  | poll handle => exact List.mem_cons_self
  | partition handle index => exact List.mem_cons_self
  | cancel handle => exact List.mem_cons_of_mem _ List.mem_cons_self

theorem dots_removed : ∀ dots ∈ [['.'], ['.', '.']], ∀ action ∈ [[], ["cancel".toList]],
    (removeDotSegments ((statementsSegments ++ dots :: action).map
      percentEncodeQueryComponent)).map percentDecode ≠
        (statementsSegments ++ dots :: action).map Utf8.encode := by decide

/-- The URL of a statement addresses it if and only if its handle is not empty and no
dot segment. -/
theorem addresses_iff (e : SnowflakeEndpoint) (r : StatementRoute) :
    Addresses e r ↔ r.handle ≠ [] ∧ r.handle ≠ ['.'] ∧ r.handle ≠ ['.', '.'] := by
  have hne : statementsSegments ++ r.handle :: r.action ≠ [] := by simp
  unfold Addresses SnowflakeEndpoint.routeUrl
  rw [pathAndQuery_eq]
  constructor
  · rintro ⟨hempty, h⟩
    rw [normalize_url e r.pairs hne] at h
    have hsegments := congrArg Normal.segments h
    refine ⟨hempty, fun hdot ↦ ?_, fun hdots ↦ ?_⟩
    · rw [hdot] at hsegments
      exact dots_removed _ (by simp) _ r.action_mem hsegments
    · rw [hdots] at hsegments
      exact dots_removed _ (by simp) _ r.action_mem hsegments
  · rintro ⟨hempty, hdot, hdots⟩
    refine ⟨hempty, normalize_url_of_plain e r.pairs hne ?_⟩
    intro s hs
    have hfront : ∀ s ∈ statementsSegments, s ≠ ['.'] ∧ s ≠ ['.', '.'] := by decide
    rcases List.mem_append.mp hs with hs | hs
    · exact hfront s hs
    · rcases List.mem_cons.mp hs with rfl | hs
      · exact ⟨hdot, hdots⟩
      · cases r with
        | poll handle => cases hs
        | partition handle index => cases hs
        | cancel handle =>
            rw [List.mem_singleton.mp hs]
            decide

/-- Different routes address different places. -/
theorem located_injective {host : Text} {r r' : StatementRoute}
    (h : located host (statementsSegments ++ r.handle :: r.action) r.pairs =
      located host (statementsSegments ++ r'.handle :: r'.action) r'.pairs) : r = r' := by
  have hsegments := List.map_injective_iff.mpr Utf8.encode_injective (congrArg Normal.segments h)
  obtain ⟨hhandle, haction⟩ := List.cons_eq_cons.mp (List.append_cancel_left hsegments)
  have hpairs : r.pairs = r'.pairs := by
    refine List.map_injective_iff.mpr ?_ (congrArg Normal.query h)
    intro p p' hp
    exact Prod.ext (Utf8.encode_injective (congrArg Prod.fst hp))
      (Utf8.encode_injective (congrArg Prod.snd hp))
  cases r with
  | poll handle =>
      cases r' with
      | poll handle' => exact congrArg _ hhandle
      | partition handle' index' => cases hpairs
      | cancel handle' => cases haction
  | partition handle index =>
      cases r' with
      | poll handle' => cases hpairs
      | partition handle' index' =>
          have hindex := (Prod.mk.inj (List.cons_eq_cons.mp hpairs).1).2
          rw [Digits.toDigits_injective hindex]
          exact congrArg (StatementRoute.partition · index') hhandle
      | cancel handle' => cases hpairs
  | cancel handle =>
      cases r' with
      | poll handle' => cases haction
      | partition handle' index' => cases haction
      | cancel handle' => exact congrArg _ hhandle

/-- What a handle may not change: each URL addresses its statement, different routes
address different places, and the pairs of a submit are those that were given. -/
structure RoutesKept (e : SnowflakeEndpoint) (r r' : StatementRoute) (requestId : Text)
    (query : List (Text × Text)) : Prop where
  first : Addresses e r
  second : Addresses e r'
  apart : r ≠ r' → r.toRoute.kind.method ≠ r'.toRoute.kind.method ∨
    Uri.normalize (e.routeUrl r.toRoute) ≠ Uri.normalize (e.routeUrl r'.toRoute)
  submit : Uri.normalize (e.routeUrl (.submitWithQuery query)) = located e.host statementsSegments query
  retry : Uri.normalize (e.routeUrl (.submitRetry requestId)) =
    located e.host statementsSegments (retryPairs requestId)

/-- The handles that are neither empty nor a dot segment are those that keep the route. -/
theorem routesKept_iff (e : SnowflakeEndpoint) (r r' : StatementRoute) (requestId : Text)
    (query : List (Text × Text)) : RoutesKept e r r' requestId query ↔
      (r.handle ≠ [] ∧ r.handle ≠ ['.'] ∧ r.handle ≠ ['.', '.']) ∧
        r'.handle ≠ [] ∧ r'.handle ≠ ['.'] ∧ r'.handle ≠ ['.', '.'] := by
  rw [← addresses_iff e r, ← addresses_iff e r']
  constructor
  · intro h
    exact ⟨h.first, h.second⟩
  · rintro ⟨hfirst, hsecond⟩
    refine ⟨hfirst, hsecond, fun hne ↦ .inr fun heq ↦ hne ?_, normalize_submitWithQuery e query,
      normalize_submitRetry e requestId⟩
    rw [hfirst.2, hsecond.2] at heq
    exact located_injective heq

/-- The handles that `query cancel` lets through. -/
def queryCancelAccepts (statementHandle : Text) : Bool :=
  !statementHandle.isEmpty && (Utf8.encode statementHandle).length ≤ 128 &&
    statementHandle.all fun ch ↦ ch.isAlphanum || ch = '-'

/-- The check of `query cancel` lets no handle through that is read as structure. -/
theorem plain_of_queryCancelAccepts {handle : Text} (h : queryCancelAccepts handle) :
    handle ≠ [] ∧ handle ≠ ['.'] ∧ handle ≠ ['.', '.'] := by
  refine ⟨?_, ?_, ?_⟩
  · rintro rfl
    exact absurd h (by decide)
  · rintro rfl
    exact absurd h (by decide)
  · rintro rfl
    exact absurd h (by decide)

def exampleEndpoint : SnowflakeEndpoint where
  baseUrl := "https://x.snowflakecomputing.com".toList
  host := "x.snowflakecomputing.com".toList
  accepted := ⟨"https://x.snowflakecomputing.com".toList, by decide +kernel⟩

/-- Polling the handle `..` asks for `/api/v2/`. -/
theorem not_routesKept_dots :
    Uri.normalize (exampleEndpoint.routeUrl (.poll "..".toList)) =
      located exampleEndpoint.host ["api".toList, "v2".toList, []] [] ∧
    ¬ RoutesKept exampleEndpoint (.poll "..".toList) (.poll "..".toList) [] [] := by
  have hurl : Uri.normalize (exampleEndpoint.routeUrl (.poll "..".toList)) =
      located exampleEndpoint.host ["api".toList, "v2".toList, []] [] := by decide +kernel
  refine ⟨hurl, fun h ↦ ?_⟩
  have haddress := h.first.2
  rw [show (StatementRoute.poll "..".toList).toRoute = .poll "..".toList from rfl, hurl] at haddress
  exact absurd haddress (by decide)

end FrankenSnowflake.Http
