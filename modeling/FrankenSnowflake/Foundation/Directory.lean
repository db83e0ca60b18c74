import Mathlib.Logic.Function.Basic

/-!
# Files in a directory

Paths name files and files have bytes.  A file stays what it is when the path it
was made under is removed or comes to name another: an open file is written to
under no name.
-/

namespace Foundation

/-- The file that each path names, and the bytes of each file. -/
structure Directory (π φ : Type) where
  entry : π → Option φ
  bytes : φ → List UInt8

namespace Directory

variable {π φ : Type} [DecidableEq π] [DecidableEq φ] (d : Directory π φ)

omit [DecidableEq π] [DecidableEq φ] in
/-- What is read under a path. -/
def contents (p : π) : Option (List UInt8) := (d.entry p).map d.bytes

/-- A new and empty file under a path. -/
def create (p : π) (f : φ) : Directory π φ :=
  ⟨Function.update d.entry p (some f), Function.update d.bytes f []⟩

omit [DecidableEq π] in
/-- An open file has new bytes. -/
def write (f : φ) (bytes : List UInt8) : Directory π φ :=
  { d with bytes := Function.update d.bytes f bytes }

omit [DecidableEq φ] in
def remove (p : π) : Directory π φ := { d with entry := Function.update d.entry p none }

omit [DecidableEq φ] in
/-- What `p` names is named by `q`, in place of what that named. -/
def rename (p q : π) : Directory π φ :=
  { d with entry := Function.update (Function.update d.entry p none) q (d.entry p) }

variable {d} {p q : π} {f f' : φ} {bytes : List UInt8}

@[simp] theorem create_entry_self : (d.create p f).entry p = some f := Function.update_self ..

@[simp] theorem create_entry_of_ne (h : q ≠ p) : (d.create p f).entry q = d.entry q :=
  Function.update_of_ne h ..

@[simp] theorem create_bytes_of_ne (h : f' ≠ f) : (d.create p f).bytes f' = d.bytes f' :=
  Function.update_of_ne h ..

omit [DecidableEq π] in
@[simp] theorem write_entry : (d.write f bytes).entry = d.entry := rfl

omit [DecidableEq π] in
@[simp] theorem write_bytes_self : (d.write f bytes).bytes f = bytes := Function.update_self ..

omit [DecidableEq π] in
@[simp] theorem write_bytes_of_ne (h : f' ≠ f) : (d.write f bytes).bytes f' = d.bytes f' :=
  Function.update_of_ne h ..

omit [DecidableEq φ] in
@[simp] theorem remove_bytes : (d.remove p).bytes = d.bytes := rfl

omit [DecidableEq φ] in
@[simp] theorem remove_entry_self : (d.remove p).entry p = none := Function.update_self ..

omit [DecidableEq φ] in
@[simp] theorem remove_entry_of_ne (h : q ≠ p) : (d.remove p).entry q = d.entry q :=
  Function.update_of_ne h ..

omit [DecidableEq φ] in
@[simp] theorem rename_bytes : (d.rename p q).bytes = d.bytes := rfl

omit [DecidableEq φ] in
@[simp] theorem rename_entry_target : (d.rename p q).entry q = d.entry p := Function.update_self ..

omit [DecidableEq φ] in
@[simp] theorem rename_entry_source (h : p ≠ q) : (d.rename p q).entry p = none := by
  show Function.update (Function.update d.entry p none) q (d.entry p) p = none
  rw [Function.update_of_ne h, Function.update_self]

omit [DecidableEq φ] in
@[simp] theorem rename_entry_of_ne {r : π} (hp : r ≠ p) (hq : r ≠ q) :
    (d.rename p q).entry r = d.entry r := by
  show Function.update (Function.update d.entry p none) q (d.entry p) r = d.entry r
  rw [Function.update_of_ne hq, Function.update_of_ne hp]

omit [DecidableEq π] [DecidableEq φ] in
/-- Equal names of files that have equal bytes read the same. -/
theorem contents_congr {d' : Directory π φ} (hentry : d'.entry p = d.entry p)
    (hbytes : ∀ f, d.entry p = some f → d'.bytes f = d.bytes f) : d'.contents p = d.contents p := by
  unfold contents
  rw [hentry]
  cases h : d.entry p with
  | none => rfl
  | some f => rw [Option.map_some, Option.map_some, hbytes f h]

end Directory

end Foundation
