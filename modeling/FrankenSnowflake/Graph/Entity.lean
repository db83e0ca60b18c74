import FrankenSnowflake.Foundation.NamePath
import FrankenSnowflake.Graph.Model

/-!
# The entities of a snapshot

What a snapshot names, by kind and identifiers, and what it relates.  The key of
an entity is a name in the sense of `NamePath`: the identifiers that lead to it,
each after the mark of its level.
-/

namespace FrankenSnowflake.Graph

open Foundation Catalog

/-- A catalog entity, with the identifiers that lead to it. -/
inductive Entity where
  | profile (profile : Text)
  | database (profile database : Text)
  | schema (profile database schema : Text)
  | object (profile : Text) (object : ObjectRef)
  | column (profile : Text) (object : ObjectRef) (column : Text)
  | stage (profile : Text) (stage : ObjectRef)
  | fileFormat (profile : Text) (fileFormat : ObjectRef)
  | dataset (id : Text)
  | tag (profile : Text) (tag : ObjectRef)
deriving DecidableEq, Repr

namespace Entity

def kind : Entity → CatalogNodeKind
  | profile _ => .profile
  | database _ _ => .database
  | schema _ _ _ => .schema
  | object _ _ => .object
  | column _ _ _ => .column
  | stage _ _ => .stage
  | fileFormat _ _ => .fileFormat
  | dataset _ => .dataset
  | tag _ _ => .tag

/-- The key under which the graph keeps an entity. -/
def key : Entity → NodeKey
  | profile p => profileKey p
  | database p d => databaseKey p d
  | schema p d s => schemaKey p d s
  | object p o => objectKey p o.database o.schema o.name
  | column p o c => columnKey p o.database o.schema o.name c
  | stage p o => schemaKey p o.database o.schema ++ "/stage:".toList ++ o.name
  | fileFormat p o => schemaKey p o.database o.schema ++ "/file_format:".toList ++ o.name
  | dataset id => datasetKey id
  | tag p t => tagKey p t

def qualifiedName : Entity → Option Text
  | profile _ => none
  | database _ d => some d
  | schema _ d s => some (d ++ ".".toList ++ s)
  | object _ o | stage _ o | fileFormat _ o | tag _ o => some o.qualified
  | column _ o c => some (o.qualified ++ ".".toList ++ c)
  | dataset id => some id

/-- The entity that contains another one. -/
def container : Entity → Option Entity
  | profile _ | dataset _ | tag _ _ => none
  | database p _ => some (profile p)
  | schema p d _ => some (database p d)
  | object p o | stage p o | fileFormat p o => some (schema p o.database o.schema)
  | column p o _ => some (object p o)

/-- An entity and those around it. -/
def chain : Entity → List Entity
  | profile p => [profile p]
  | database p d => [profile p, database p d]
  | schema p d s => [profile p, database p d, schema p d s]
  | object p o =>
      [profile p, database p o.database, schema p o.database o.schema, object p o]
  | column p o c =>
      [profile p, database p o.database, schema p o.database o.schema, object p o, column p o c]
  | stage p o =>
      [profile p, database p o.database, schema p o.database o.schema, stage p o]
  | fileFormat p o =>
      [profile p, database p o.database, schema p o.database o.schema, fileFormat p o]
  | dataset id => [dataset id]
  | tag p t => [profile p, tag p t]

theorem mem_chain (e : Entity) : e ∈ e.chain := by cases e <;> simp [chain]

/-- What contains an entity of a chain is in the chain. -/
theorem container_mem_chain {e e' c : Entity} (h : e' ∈ e.chain) (hc : e'.container = some c) :
    c ∈ e.chain := by
  cases e <;> simp only [chain, List.mem_cons, List.not_mem_nil, or_false] at h ⊢ <;>
    rcases h with rfl | rfl | rfl | rfl | rfl <;> simp_all [container]

end Entity

/-! ## Keys as names -/

/-- The levels of a key behind the profile; `dot` joins the parts of a tag. -/
inductive Level where
  | db
  | schema
  | object
  | column
  | stage
  | fileFormat
  | tag
  | dot
deriving DecidableEq, Repr

def Level.marker : Level → String
  | db => "/db:"
  | schema => "/schema:"
  | object => "/object:"
  | column => "/column:"
  | stage => "/stage:"
  | fileFormat => "/file_format:"
  | tag => "/tag:"
  | dot => "."

def Level.mark (l : Level) : Text := l.marker.toList

/-- Every mark begins with a slash or is the dot, and has neither further on. -/
theorem Level.mark_head {l : Level} {c : Char} (h : l.mark.head? = some c) :
    c = '/' ∨ c = '.' := by
  cases l <;> · cases h; decide

theorem Level.notMem_tail_mark (l : Level) : '/' ∉ l.mark.tail ∧ '.' ∉ l.mark.tail := by
  cases l <;> decide

theorem Level.marks : NamePath.Marks Level.mark where
  ne_nil l := by cases l <;> decide
  eq_of_isPrefix {l l'} h := by
    cases l <;> cases l' <;> first | rfl | exact absurd h (by decide)
  head_notMem_tail {l l' c} h := by
    rcases mark_head h with rfl | rfl
    · exact l'.notMem_tail_mark.1
    · exact l'.notMem_tail_mark.2

namespace Entity

/-- Whether a key begins with a dataset, not with a profile. -/
def isDataset : Entity → Bool
  | dataset _ => true
  | _ => false

/-- The text in front of a key. -/
def root (e : Entity) : Text := bif e.isDataset then "dataset:".toList else "profile:".toList

/-- The first identifier. -/
def first : Entity → Text
  | profile p | database p _ | schema p _ _ | object p _ | column p _ _ | stage p _
  | fileFormat p _ | tag p _ => p
  | dataset id => id

/-- The identifiers behind the first one, by level. -/
def parts : Entity → List (Level × Text)
  | profile _ | dataset _ => []
  | database _ d => [(.db, d)]
  | schema _ d s => [(.db, d), (.schema, s)]
  | object _ o => [(.db, o.database), (.schema, o.schema), (.object, o.name)]
  | column _ o c => [(.db, o.database), (.schema, o.schema), (.object, o.name), (.column, c)]
  | stage _ o => [(.db, o.database), (.schema, o.schema), (.stage, o.name)]
  | fileFormat _ o => [(.db, o.database), (.schema, o.schema), (.fileFormat, o.name)]
  | tag _ t => [(.tag, t.database), (.dot, t.schema), (.dot, t.name)]

/-- The entity with the given identifiers. -/
def ofParts (isDataset : Bool) (first : Text) : List (Level × Text) → Option Entity
  | [] => some (if isDataset then dataset first else profile first)
  | [(.db, d)] => some (database first d)
  | [(.db, d), (.schema, s)] => some (schema first d s)
  | [(.db, d), (.schema, s), (.object, o)] => some (object first ⟨d, s, o⟩)
  | [(.db, d), (.schema, s), (.object, o), (.column, c)] => some (column first ⟨d, s, o⟩ c)
  | [(.db, d), (.schema, s), (.stage, n)] => some (stage first ⟨d, s, n⟩)
  | [(.db, d), (.schema, s), (.fileFormat, n)] => some (fileFormat first ⟨d, s, n⟩)
  | [(.tag, d), (.dot, s), (.dot, n)] => some (tag first ⟨d, s, n⟩)
  | _ => none

theorem ofParts_parts (e : Entity) : ofParts e.isDataset e.first e.parts = some e := by
  cases e <;> rfl

/-- An entity is its identifiers, by level. -/
theorem eq_of_parts_eq {e e' : Entity} (hr : e.isDataset = e'.isDataset)
    (hp : (e.first, e.parts) = (e'.first, e'.parts)) : e = e' := by
  obtain ⟨hfirst, hparts⟩ := Prod.mk.inj hp
  have h := ofParts_parts e
  rw [hr, hfirst, hparts, ofParts_parts] at h
  exact (Option.some.inj h).symm

theorem key_eq (e : Entity) :
    e.key = e.root ++ (e.first ++ NamePath.joined Level.mark e.parts) := by
  cases e <;>
    simp only [key, root, isDataset, first, parts, Level.mark,
      Level.marker, profileKey_eq, databaseKey, schemaKey, objectKey, columnKey, datasetKey_eq,
      tagKey, ObjectRef.qualified, NamePath.joined_nil, NamePath.joined_cons, List.append_assoc,
      List.append_nil, cond_true, cond_false]

/-- The identifiers of one entity run on over those of another: at the first level
where they part, an identifier of the one is that of the other, the mark of the
other's next level, and a text that reads on as the other does. -/
def RunsOn (e e' : Entity) : Prop :=
  e.isDataset = e'.isDataset ∧ NamePath.RunsOn Level.mark e.first e.parts e'.first e'.parts

theorem RunsOn.ne {e e' : Entity} (h : e.RunsOn e') : e ≠ e' := by
  rintro rfl
  exact h.2.ne Level.marks rfl

/-- No identifier contains a slash, and the database and the schema of a tag no dot. -/
structure Plain (e : Entity) : Prop where
  slash : ∀ w ∈ e.first :: e.parts.map Prod.snd, '/' ∉ w
  dot : ∀ p t, e = tag p t → '.' ∉ t.database ∧ '.' ∉ t.schema

/-- Plain identifiers run on over no others. -/
theorem Plain.not_runsOn {e e' : Entity} (h : e.Plain) : ¬ e.RunsOn e' := by
  rintro ⟨-, hrun⟩
  obtain ⟨i, w, l, hw, hl, htake, hwithin⟩ := hrun.exists_mark
  have hslash : '/' ∉ w := h.slash w (List.mem_of_getElem? hw)
  have hdot : l = .dot := by
    by_contra hne
    exact hslash (hwithin.subset (by cases l <;> first | decide | exact absurd rfl hne))
  subst hdot
  -- only a tag has dots, behind its database and its schema
  cases e' with
  | tag p' t' =>
      cases e with
      | tag p t =>
          obtain ⟨hdatabase, hschema⟩ := h.dot p t rfl
          have hmem : '.' ∈ w := hwithin.subset (by decide)
          match i, hw, hl with
          | 0, _, hl => cases hl
          | 1, hw, _ =>
              cases hw
              exact hdatabase hmem
          | 2, hw, _ =>
              cases hw
              exact hschema hmem
          | _ + 3, _, hl => cases hl
      | _ =>
          cases i with
          | zero => cases hl
          | succ i => simp [parts] at htake
  | _ => exact absurd (List.mem_of_getElem? hl) (by simp [parts])

/-- Two entities have one key if and only if they are the same or the identifiers of
one of them run on over those of the other. -/
theorem key_eq_iff {e e' : Entity} : e.key = e'.key ↔ e = e' ∨ e.RunsOn e' ∨ e'.RunsOn e := by
  rw [key_eq, key_eq]
  by_cases hr : e.isDataset = e'.isDataset
  · rw [root, root, hr, List.append_cancel_left_eq, Level.marks.joined_eq_iff]
    constructor
    · rintro (h | h | h)
      · exact Or.inl (eq_of_parts_eq hr h)
      · exact Or.inr (Or.inl ⟨hr, h⟩)
      · exact Or.inr (Or.inr ⟨hr.symm, h⟩)
    · rintro (rfl | h | h)
      · exact Or.inl rfl
      · exact Or.inr (Or.inl h.2)
      · exact Or.inr (Or.inr h.2)
  · constructor
    · -- the keys differ in their first character
      intro h
      exfalso
      have hhead := congrArg List.head? h
      cases hd : e.isDataset <;> cases hd' : e'.isDataset <;>
        simp_all [root]
    · rintro (rfl | h | h)
      · exact absurd rfl hr
      · exact absurd h.1 hr
      · exact absurd h.1.symm hr

end Entity

end FrankenSnowflake.Graph
