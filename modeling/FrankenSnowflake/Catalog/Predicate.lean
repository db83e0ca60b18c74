import Mathlib.Data.Char
import Mathlib.Data.List.Infix
import Mathlib.Data.List.Lex
import FrankenSnowflake.Catalog.Model
import FrankenSnowflake.Foundation.Ascii
import FrankenSnowflake.Foundation.JsonValue
import FrankenSnowflake.Foundation.SortedMap

/-!
# Predicates

A filter is a tree of compounds and of leaves that compare a column with values.
It is checked against the columns and the operators of a catalog before it is
compiled; every leaf is checked.
-/

namespace FrankenSnowflake.Catalog

open Foundation

/-! ## Operators -/

inductive OperatorArity where
  | exact (count : Nat)
  | variadic (min max : Nat)
deriving DecidableEq, Repr

def OperatorArity.accepts : OperatorArity → Nat → Bool
  | exact expected, count => count = expected
  | variadic min max, count => min ≤ count && count ≤ max

def OperatorArity.label : OperatorArity → Text
  | exact count => Nat.toDigits 10 count
  | variadic min max => Nat.toDigits 10 min ++ "..=".toList ++ Nat.toDigits 10 max

/-- One operator of the catalog. -/
structure OperatorCatalogEntry where
  id : Text
  arity : OperatorArity
  acceptedDtypeClasses : List DtypeClass
deriving DecidableEq, Repr

def OperatorCatalogEntry.acceptsDtype (operator : OperatorCatalogEntry) (dtype : DtypeClass) :
    Bool :=
  dtype ∈ operator.acceptedDtypeClasses

/-- The operators that are built in. -/
def builtInOperatorCatalog : List OperatorCatalogEntry :=
  let scalar : List DtypeClass := [.string, .number, .boolean, .date, .time, .timestamp, .binary]
  let ordered : List DtypeClass := [.number, .date, .time, .timestamp]
  let allColumns := scalar ++ [.variant, .unknown]
  ["eq", "neq"].map (fun id ↦ ⟨id.toList, .exact 1, scalar⟩) ++
    ["lt", "lte", "gt", "gte"].map (fun id ↦ ⟨id.toList, .exact 1, ordered⟩) ++
    [⟨"between".toList, .exact 2, ordered⟩, ⟨"in".toList, .variadic 1 100, scalar⟩,
      ⟨"is_null".toList, .exact 0, allColumns⟩, ⟨"is_not_null".toList, .exact 0, allColumns⟩,
      ⟨"contains".toList, .exact 1, [.string]⟩]

/-! ## Trees -/

/-- A comparison of a column; operators without values have none. -/
structure LeafPredicate where
  column : Text
  op : Text
  value : Option JsonValue

/-- A structural predicate: a leaf, or children that must all hold, children of which
one must hold, and a child that must not hold. -/
inductive PredicateAst where
  | compound (and or : List PredicateAst) (not : Option PredicateAst)
  | leaf (leaf : LeafPredicate)

/-! ## Suggestions -/

/-- What the planner uses of its libraries: `char::to_lowercase`, the debug form of a
text, and the text of a JSON number, array or object. -/
structure Rendering where
  toLowercase : Char → List Char
  debug : Text → Text
  display : JsonValue → Text

/-- The next row of the edit distances of a text. -/
def levenshteinRow (right : Text) (leftChar : Char) (previous : List Nat) (leftIndex : Nat) :
    List Nat :=
  (right.zip (previous.zip previous.tail)).foldl
    (fun current (rightChar, diagonal, above) ↦
      let substitute := diagonal + if leftChar = rightChar then 0 else 1
      current ++ [min (min (above + 1) (current.getLastD 0 + 1)) substitute])
    [leftIndex + 1]

def levenshtein (left right : Text) : Nat :=
  (left.zipIdx.foldl
    (fun previous (leftChar, leftIndex) ↦ levenshteinRow right leftChar previous leftIndex)
    (List.range (right.length + 1))).getLastD 0

section Validation

variable (R : Rendering)

def scoreCandidate (needle candidate column : Text) (candidates : SortedMap Text Nat) :
    SortedMap Text Nat :=
  let candidateNormalized := normalizeIdentifier R.toLowercase candidate
  let distance := levenshtein needle candidateNormalized
  let isPlausible := needle <:+: candidateNormalized ∨ candidateNormalized <:+: needle ∨ distance ≤ 3
  if isPlausible then
    candidates.insert column (min distance ((candidates.get? column).getD distance))
  else candidates

/-- Up to three columns that the input may have meant. -/
def didYouMeanColumns (input : Text) (columns : List ColumnCatalogEntry) : List Text :=
  let needle := normalizeIdentifier R.toLowercase input
  let candidates := columns.foldl
    (fun candidates column ↦ (column.column :: column.aliases).foldl
      (fun candidates candidate ↦ scoreCandidate R needle candidate column.column candidates)
      candidates)
    SortedMap.empty
  let ranked := candidates.entries.mergeSort fun left right ↦
    left.2 < right.2 || (left.2 = right.2 && Ascii.lower left.1 ≤ Ascii.lower right.1)
  (ranked.take 3).map Prod.fst

/-- Up to three operators that the input may have meant. -/
def didYouMeanOperators (input : Text) (operators : List OperatorCatalogEntry) : List Text :=
  let needle := Ascii.lower (Unicode.trim input)
  if needle.isEmpty then []
  else
    let candidates := operators.foldl
      (fun candidates operator ↦
        let opId := Ascii.lower operator.id
        let distance := levenshtein needle opId
        if needle <+: opId then
          candidates.insert operator.id ((opId.map Char.utf8Size).sum - (needle.map Char.utf8Size).sum)
        else if distance ≤ 2 then candidates.insert operator.id distance
        else candidates)
      SortedMap.empty
    let ranked := candidates.entries.mergeSort fun left right ↦
      left.2 < right.2 || (left.2 = right.2 && left.1 ≤ right.1)
    (ranked.take 3).map Prod.fst

/-! ## Validation -/

inductive PredicateRefusalCode where
  | columnUnknown
  | operatorUnknown
  | filterOperatorDtype
  | filterArity
deriving DecidableEq, Repr

def PredicateRefusalCode.stableCode : PredicateRefusalCode → String
  | columnUnknown => "FSNOW_COLUMN_UNKNOWN"
  | operatorUnknown => "FSNOW_OPERATOR_UNKNOWN"
  | filterOperatorDtype => "FSNOW_FILTER_OPERATOR_DTYPE"
  | filterArity => "FSNOW_FILTER_ARITY"

structure PredicateRefusal where
  code : PredicateRefusalCode
  message : Text
  column : Option Text
  operator : Option Text
  didYouMean : List Text
deriving DecidableEq, Repr

/-- The debug form of a dtype class. -/
def DtypeClass.debug : DtypeClass → String
  | string => "String"
  | number => "Number"
  | boolean => "Boolean"
  | date => "Date"
  | time => "Time"
  | timestamp => "Timestamp"
  | binary => "Binary"
  | variant => "Variant"
  | unknown => "Unknown"

/-- How a name is looked up among the columns of a dataset. -/
abbrev Lookup := Text → List ColumnCatalogEntry → Option ColumnCatalogEntry

/-- The first column with the normalised identifier of a name. -/
def findColumn : Lookup := fun column columns ↦
  columns.find? fun candidate ↦
    normalizeIdentifier R.toLowercase candidate.column = normalizeIdentifier R.toLowercase column

/-- An operator by its exact id. -/
def findOperator (operator : Text) (operators : List OperatorCatalogEntry) :
    Option OperatorCatalogEntry :=
  operators.find? (·.id = operator)

/-- The number of supplied values. -/
def valueCount : Option JsonValue → Nat
  | none => 0
  | some (.array values) => values.length
  | some _ => 1

variable (find : Lookup) (columns : List ColumnCatalogEntry)
  (operators : List OperatorCatalogEntry)

/-- The refusals of a leaf. -/
def validateLeaf (leaf : LeafPredicate) : List PredicateRefusal :=
  let column := find leaf.column columns
  let operator := findOperator leaf.op operators
  let unknownColumn : List PredicateRefusal :=
    if column.isSome then []
    else
      [{ code := .columnUnknown
         message := "unknown column ".toList ++ R.debug leaf.column
         column := some leaf.column
         operator := some leaf.op
         didYouMean := didYouMeanColumns R leaf.column columns }]
  let unknownOperator : List PredicateRefusal :=
    if operator.isSome then []
    else
      [{ code := .operatorUnknown
         message := "unknown operator ".toList ++ R.debug leaf.op
         column := some leaf.column
         operator := some leaf.op
         didYouMean := didYouMeanOperators leaf.op operators }]
  let mismatches : List PredicateRefusal :=
    match column, operator with
    | some column, some operator =>
        (if operator.arity.accepts (valueCount leaf.value) then []
          else
            [{ code := .filterArity
               message := "operator ".toList ++ R.debug operator.id ++ " expects ".toList ++
                operator.arity.label ++ " value(s)".toList
               column := some column.column
               operator := some operator.id
               didYouMean := [] }]) ++
        if operator.acceptsDtype column.dtypeClass then []
        else
          [{ code := .filterOperatorDtype
             message := "operator ".toList ++ R.debug operator.id ++
              " does not accept dtype ".toList ++ column.dtypeClass.debug.toList
             column := some column.column
             operator := some operator.id
             didYouMean := [] }]
    | _, _ => []
  unknownColumn ++ unknownOperator ++ mismatches

mutual

/-- The refusals of a tree, leaf by leaf. -/
def validateNode : PredicateAst → List PredicateRefusal
  | .compound and or not => validateNodes and ++ validateNodes or ++ validateNot not
  | .leaf leaf => validateLeaf R find columns operators leaf

def validateNodes : List PredicateAst → List PredicateRefusal
  | [] => []
  | child :: children => validateNode child ++ validateNodes children

def validateNot : Option PredicateAst → List PredicateRefusal
  | none => []
  | some child => validateNode child

end

/-- Check a tree against the column and operator catalogs. -/
def validatePredicate (predicate : PredicateAst) : Except (List PredicateRefusal) Unit :=
  let refusals := validateNode R find columns operators predicate
  if refusals.isEmpty then .ok () else .error refusals

end Validation

end FrankenSnowflake.Catalog
