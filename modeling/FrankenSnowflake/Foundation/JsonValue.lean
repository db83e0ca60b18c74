import Mathlib.Algebra.GroupWithZero.Nat
import Mathlib.Data.List.Basic

/-!
# JSON values

The values that a JSON library reads and writes: numbers are 64-bit integers or
floats, objects are lists of entries in order.
-/

namespace Foundation

/-- A number; a float is only known by its bits. -/
inductive JsonNumber where
  | posInt (n : UInt64)
  | negInt (n : Int64)
  | float (bits : UInt64)
deriving DecidableEq

inductive JsonValue where
  | null
  | bool (b : Bool)
  | number (n : JsonNumber)
  | string (s : List Char)
  | array (items : List JsonValue)
  | object (entries : List (List Char × JsonValue))

namespace JsonValue

/-- The entry of an object. -/
def get? (v : JsonValue) (key : List Char) : Option JsonValue :=
  match v with
  | object entries => (entries.find? fun e ↦ e.1 = key).map Prod.snd
  | null | bool _ | number _ | string _ | array _ => none

theorem get?_cons_self (key : List Char) (v : JsonValue) (entries : List (List Char × JsonValue)) :
    (object ((key, v) :: entries)).get? key = some v := by simp [get?]

theorem get?_cons_of_ne {key key' : List Char} (h : key' ≠ key) (v : JsonValue)
    (entries : List (List Char × JsonValue)) :
    (object ((key', v) :: entries)).get? key = (object entries).get? key := by simp [get?, h]

def asStr? : JsonValue → Option (List Char)
  | string s => some s
  | null | bool _ | number _ | array _ | object _ => none

def asArray? : JsonValue → Option (List JsonValue)
  | array items => some items
  | null | bool _ | number _ | string _ | object _ => none

/-- The number as a signed integer. -/
def asI64? : JsonValue → Option Int
  | number (.posInt n) => if n.toNat < 2 ^ 63 then some n.toNat else none
  | number (.negInt n) => some n.toInt
  | number (.float _) | null | bool _ | string _ | array _ | object _ => none

/-- The number as an unsigned integer. -/
def asU64? : JsonValue → Option UInt64
  | number (.posInt n) => some n
  | number (.negInt _) | number (.float _) | null | bool _ | string _ | array _ | object _ => none

end JsonValue

end Foundation
