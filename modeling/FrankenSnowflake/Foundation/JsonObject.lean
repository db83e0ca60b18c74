import FrankenSnowflake.Foundation.Json

/-!
# JSON values and objects

The shape of a JSON value, without its reading: strings are bytes between
quotes in which a backslash takes the next byte with it, and a number or a
literal is a run of bytes that are neither whitespace, quotes nor structural.
Every JSON value has this shape, and it is all a scanner needs that looks for a
member of an object.
-/

namespace Foundation.Json

/-- The bytes between the quotes of a string. -/
inductive Quoted : List UInt8 → Prop where
  | nil : Quoted []
  | raw {b : UInt8} {t : List UInt8} (hquote : b ≠ 0x22) (hescape : b ≠ 0x5c) (ht : Quoted t) :
      Quoted (b :: t)
  | escape {b : UInt8} {t : List UInt8} (ht : Quoted t) : Quoted (0x5c :: b :: t)

/-- A byte of a number or of a literal name. -/
def isScalarByte (b : UInt8) : Bool :=
  !isWs b && b ≠ 0x22 && b ≠ 0x5b && b ≠ 0x5d && b ≠ 0x7b && b ≠ 0x7d && b ≠ 0x2c && b ≠ 0x3a

/-- What a piece of text is derived from: a value, one or more elements of an
array, a member of an object, or one or more of these. -/
inductive Rule where
  | value
  | elements
  | member
  | members

/-- The grammar of values.  Elements and members take the whitespace behind
them. -/
inductive Derives : Rule → List UInt8 → Prop where
  | string {t : List UInt8} (ht : Quoted t) : Derives .value (0x22 :: (t ++ [0x22]))
  | scalar {t : List UInt8} (hne : t ≠ []) (ht : ∀ b ∈ t, isScalarByte b) : Derives .value t
  | emptyArray {w : List UInt8} (hw : Ws w) : Derives .value (0x5b :: (w ++ [0x5d]))
  | array {w t : List UInt8} (hw : Ws w) (ht : Derives .elements t) :
      Derives .value (0x5b :: (w ++ (t ++ [0x5d])))
  | emptyObject {w : List UInt8} (hw : Ws w) : Derives .value (0x7b :: (w ++ [0x7d]))
  | object {w t : List UInt8} (hw : Ws w) (ht : Derives .members t) :
      Derives .value (0x7b :: (w ++ (t ++ [0x7d])))
  | lastElement {t w : List UInt8} (ht : Derives .value t) (hw : Ws w) :
      Derives .elements (t ++ w)
  | elements {t w w' ts : List UInt8} (ht : Derives .value t) (hw : Ws w) (hw' : Ws w')
      (hts : Derives .elements ts) : Derives .elements (t ++ (w ++ 0x2c :: (w' ++ ts)))
  | member {k w w' t : List UInt8} (hk : Quoted k) (hw : Ws w) (hw' : Ws w')
      (ht : Derives .value t) : Derives .member (0x22 :: (k ++ 0x22 :: (w ++ 0x3a :: (w' ++ t))))
  | lastMember {t w : List UInt8} (ht : Derives .member t) (hw : Ws w) : Derives .members (t ++ w)
  | members {t w w' ts : List UInt8} (ht : Derives .member t) (hw : Ws w) (hw' : Ws w')
      (hts : Derives .members ts) : Derives .members (t ++ (w ++ 0x2c :: (w' ++ ts)))

/-- A member of an object: its key as spelled between the quotes, and the text
of its value. -/
structure Member where
  key : List UInt8
  value : List UInt8
deriving DecidableEq, Repr

/-- The rule `member`. -/
inductive MemberText : List UInt8 → Member → Prop where
  | mk {k w w' v : List UInt8} (hk : Quoted k) (hw : Ws w) (hw' : Ws w') (hv : Derives .value v) :
      MemberText (0x22 :: (k ++ 0x22 :: (w ++ 0x3a :: (w' ++ v)))) ⟨k, v⟩

/-- The rule `object`, with its members. -/
inductive ObjectText : List UInt8 → List Member → Prop where
  | empty {w : List UInt8} (hw : Ws w) : ObjectText (0x7b :: (w ++ [0x7d])) []
  | members {w ts : List UInt8} {ms : List Member} (hw : Ws w) (hts : Elements MemberText ts ms) :
      ObjectText (0x7b :: (w ++ (ts ++ [0x7d]))) ms

theorem ObjectText.starts {s : List UInt8} {ms : List Member} (h : ObjectText s ms) : Starts s := by
  cases h with
  | empty => exact ⟨_, _, rfl, by decide, by decide⟩
  | members => exact ⟨_, _, rfl, by decide, by decide⟩

end Foundation.Json
