import Mathlib.Data.Char
import Mathlib.Data.List.Lex
import FrankenSnowflake.Catalog.Model
import FrankenSnowflake.Foundation.Ascii
import FrankenSnowflake.Foundation.SortedMap

/-!
# The catalog graph

A typed directed multigraph of the entities of a snapshot.  Nodes are kept under
a key that is written from the identifiers of the entity, as they are.
-/

namespace FrankenSnowflake.Graph

open Foundation Catalog

/-- Stable node key. -/
abbrev NodeKey := Text

inductive CatalogNodeKind where
  | profile
  | database
  | schema
  | object
  | column
  | stage
  | fileFormat
  | dataset
  | tag
deriving DecidableEq, Repr

def CatalogNodeKind.asStr : CatalogNodeKind → String
  | profile => "profile"
  | database => "database"
  | schema => "schema"
  | object => "object"
  | column => "column"
  | stage => "stage"
  | fileFormat => "file_format"
  | dataset => "dataset"
  | tag => "tag"

inductive CatalogEdgeKind where
  | contains
  | datasetObject
  | fieldColumn
  | foreignKey
  | viewDependsOn
  | lineageReads
  | usesStage
  | usesFileFormat
  | tagged
deriving DecidableEq, Repr

structure CatalogNode where
  key : NodeKey
  kind : CatalogNodeKind
  label : Text
  qualifiedName : Option Text
  provenance : Provenance
  redactionsApplied : List Text
deriving DecidableEq, Repr

structure CatalogEdge where
  source : NodeKey
  target : NodeKey
  kind : CatalogEdgeKind
  detail : Option Text
  provenance : Provenance
  redactionsApplied : List Text
deriving DecidableEq, Repr

/-- Source, kind, target and detail: what two edges may not share. -/
abbrev EdgeKey := NodeKey × CatalogEdgeKind × NodeKey × Option Text

/-- A typed directed multigraph with adjacency indexes into its edges. -/
structure CatalogGraph where
  nodes : SortedMap NodeKey CatalogNode
  edges : List CatalogEdge
  outgoing : SortedMap NodeKey (List Nat)
  incoming : SortedMap NodeKey (List Nat)
  edgeKeys : List EdgeKey

/-! ## Keys -/

def profileKey (profile : Text) : NodeKey := "profile:".toList ++ profile

theorem profileKey_eq (profile : Text) : profileKey profile = "profile:".toList ++ profile := rfl

def databaseKey (profile database : Text) : NodeKey :=
  profileKey profile ++ "/db:".toList ++ database

def schemaKey (profile database schema : Text) : NodeKey :=
  databaseKey profile database ++ "/schema:".toList ++ schema

def objectKey (profile database schema object : Text) : NodeKey :=
  schemaKey profile database schema ++ "/object:".toList ++ object

def columnKey (profile database schema object column : Text) : NodeKey :=
  objectKey profile database schema object ++ "/column:".toList ++ column

def datasetKey (datasetId : Text) : NodeKey := "dataset:".toList ++ datasetId

theorem datasetKey_eq (datasetId : Text) :
    datasetKey datasetId = "dataset:".toList ++ datasetId := rfl

def tagKey (profile : Text) (tag : ObjectRef) : NodeKey :=
  profileKey profile ++ "/tag:".toList ++ tag.qualified

/-! ## Nodes and edges -/

def node (key : NodeKey) (kind : CatalogNodeKind) (label : Text) (qualifiedName : Option Text)
    (provenance : Provenance) : CatalogNode where
  key := key
  kind := kind
  label := label
  qualifiedName := qualifiedName
  provenance := provenance
  redactionsApplied := provenance.redactionsApplied

def edge (source : NodeKey) (kind : CatalogEdgeKind) (target : NodeKey) (detail : Option Text)
    (provenance : Provenance) : CatalogEdge where
  source := source
  target := target
  kind := kind
  detail := detail
  provenance := provenance
  redactionsApplied := provenance.redactionsApplied

def CatalogEdge.edgeKey (e : CatalogEdge) : EdgeKey := (e.source, e.kind, e.target, e.detail)

def datasetKindLabel : DatasetKind → String
  | .table => "table"
  | .view => "view"
  | .materializedView => "materialized_view"
  | .externalTable => "external_table"

def fieldRoleLabel : FieldRole → String
  | .entityKey => "entity_key"
  | .timeIndex => "time_index"
  | .knownAt => "known_at"
  | .feature => "feature"
  | .label => "label"
  | .metadata => "metadata"

/-- `map.entry(key).or_default()`. -/
def ensureRow (m : SortedMap NodeKey (List Nat)) (key : NodeKey) : SortedMap NodeKey (List Nat) :=
  if (m.get? key).isSome then m else m.insert key []

/-- `map.entry(key).or_default().insert(index)`, of an index above those there. -/
def addIndex (m : SortedMap NodeKey (List Nat)) (key : NodeKey) (index : Nat) :
    SortedMap NodeKey (List Nat) :=
  m.insert key ((m.get? key).getD [] ++ [index])

namespace CatalogGraph

/-- The empty graph. -/
def new : CatalogGraph := ⟨.empty, [], .empty, .empty, []⟩

def containsKey (g : CatalogGraph) (key : NodeKey) : Bool := (g.nodes.get? key).isSome

/-- Insert or replace a node and ensure its adjacency rows. -/
def addNode (g : CatalogGraph) (node : CatalogNode) : CatalogGraph :=
  { g with
    outgoing := ensureRow g.outgoing node.key
    incoming := ensureRow g.incoming node.key
    nodes := g.nodes.insert node.key node }

/-- Insert an edge unless one of its key is present. -/
def addEdge (g : CatalogGraph) (edge : CatalogEdge) : CatalogGraph :=
  if edge.edgeKey ∈ g.edgeKeys then g
  else
    { g with
      edgeKeys := edge.edgeKey :: g.edgeKeys
      outgoing := addIndex g.outgoing edge.source g.edges.length
      incoming := addIndex g.incoming edge.target g.edges.length
      edges := g.edges ++ [edge] }

/-- Insert a node unless its key is present. -/
def ensureNode (g : CatalogGraph) (node : CatalogNode) : CatalogGraph :=
  if g.containsKey node.key then g else g.addNode node

/-! ## Building a graph -/

def addDataset (g : CatalogGraph) (dataset : DatasetManifest) : CatalogGraph :=
  let provenance := dataset.provenance
  let profileKey := profileKey dataset.profile
  let databaseKey := databaseKey dataset.profile dataset.database
  let schemaKey := schemaKey dataset.profile dataset.database dataset.schema
  let objectKey := objectKey dataset.profile dataset.database dataset.schema dataset.object
  let datasetKey := datasetKey dataset.id
  g.addNode (node profileKey .profile ("profile:".toList ++ dataset.profile) none provenance)
    |>.addNode (node databaseKey .database ("database:".toList ++ dataset.database)
      (some dataset.database) provenance)
    |>.addNode (node schemaKey .schema
      ("schema:".toList ++ dataset.database ++ ".".toList ++ dataset.schema)
      (some (dataset.database ++ ".".toList ++ dataset.schema)) provenance)
    |>.addNode (node objectKey .object
      ((datasetKindLabel dataset.kind).toList ++ ":".toList ++ dataset.database ++ ".".toList ++
        dataset.schema ++ ".".toList ++ dataset.object)
      (some (dataset.database ++ ".".toList ++ dataset.schema ++ ".".toList ++ dataset.object))
      provenance)
    |>.addNode (node datasetKey .dataset ("dataset:".toList ++ dataset.id) (some dataset.id)
      provenance)
    |>.addEdge (edge profileKey .contains databaseKey none provenance)
    |>.addEdge (edge databaseKey .contains schemaKey none provenance)
    |>.addEdge (edge schemaKey .contains objectKey none provenance)
    |>.addEdge (edge datasetKey .datasetObject objectKey none provenance)

def addColumn (g : CatalogGraph) (profile : Text) (column : ColumnCatalogEntry)
    (snapshotProvenance : Provenance) : CatalogGraph :=
  let provenance := column.provenance.getD snapshotProvenance
  let objectKey := objectKey profile column.database column.schema column.object
  let columnKey := columnKey profile column.database column.schema column.object column.column
  g.addNode (node columnKey .column ("column:".toList ++ column.column)
      (some (column.database ++ ".".toList ++ column.schema ++ ".".toList ++ column.object ++
        ".".toList ++ column.column)) provenance)
    |>.addEdge (edge objectKey .contains columnKey none provenance)

def addDatasetFieldColumnNode (g : CatalogGraph) (dataset : DatasetManifest)
    (field : DatasetField) (columnKey : NodeKey) : CatalogGraph :=
  g.addNode (node columnKey .column ("column:".toList ++ field.column)
    (some (dataset.database ++ ".".toList ++ dataset.schema ++ ".".toList ++ dataset.object ++
      ".".toList ++ field.column)) dataset.provenance)

/-- One field of `addDatasetEdges`. -/
def addFieldEdges (g : CatalogGraph) (dataset : DatasetManifest) (field : DatasetField) :
    CatalogGraph :=
  let datasetKey := datasetKey dataset.id
  let objectKey := objectKey dataset.profile dataset.database dataset.schema dataset.object
  let columnKey :=
    columnKey dataset.profile dataset.database dataset.schema dataset.object field.column
  let g :=
    if g.containsKey columnKey then g
    else
      (g.addDatasetFieldColumnNode dataset field columnKey).addEdge
        (edge objectKey .contains columnKey none dataset.provenance)
  g.addEdge (edge datasetKey .fieldColumn columnKey (some (fieldRoleLabel field.role).toList)
    dataset.provenance)

def addDatasetEdges (g : CatalogGraph) (dataset : DatasetManifest) : CatalogGraph :=
  dataset.fields.foldl (fun g field ↦ g.addFieldEdges dataset field) g

/-- Ensure the nodes down to the schema of an object; gives the schema's key. -/
def ensureSchema (g : CatalogGraph) (profile : Text) (object : ObjectRef)
    (provenance : Provenance) : NodeKey × CatalogGraph :=
  let profileKey := profileKey profile
  let databaseKey := databaseKey profile object.database
  let schemaKey := schemaKey profile object.database object.schema
  (schemaKey,
    g.ensureNode (node profileKey .profile ("profile:".toList ++ profile) none provenance)
      |>.ensureNode (node databaseKey .database ("database:".toList ++ object.database)
        (some object.database) provenance)
      |>.ensureNode (node schemaKey .schema
        ("schema:".toList ++ object.database ++ ".".toList ++ object.schema)
        (some (object.database ++ ".".toList ++ object.schema)) provenance)
      |>.addEdge (edge profileKey .contains databaseKey none provenance)
      |>.addEdge (edge databaseKey .contains schemaKey none provenance))

/-- The node of an object, with its schema's when it is new; gives its key. -/
def ensureObject (g : CatalogGraph) (profile : Text) (object : ObjectRef)
    (provenance : Provenance) : NodeKey × CatalogGraph :=
  let key := objectKey profile object.database object.schema object.name
  if g.containsKey key then (key, g)
  else
    let schema := g.ensureSchema profile object provenance
    (key,
      schema.2.addNode (node key .object ("object:".toList ++ object.qualified)
          (some object.qualified) provenance)
        |>.addEdge (edge schema.1 .contains key none provenance))

/-- The node of a named stage or file format, contained by its schema; gives its key. -/
def ensureNamed (g : CatalogGraph) (profile : Text) (named : ObjectRef) (kind : CatalogNodeKind)
    (provenance : Provenance) : NodeKey × CatalogGraph :=
  let schema := g.ensureSchema profile named provenance
  let key := schema.1 ++ "/".toList ++ kind.asStr.toList ++ ":".toList ++ named.name
  if schema.2.containsKey key then (key, schema.2)
  else
    (key,
      schema.2.addNode (node key kind (kind.asStr.toList ++ ":".toList ++ named.qualified)
          (some named.qualified) provenance)
        |>.addEdge (edge schema.1 .contains key none provenance))

def addRelation (g : CatalogGraph) (profile : Text) (provenance : Provenance) :
    CatalogRelation → CatalogGraph
  | .viewDependsOn view source sourceType =>
      let view := g.ensureObject profile view provenance
      let source := view.2.ensureObject profile source provenance
      source.2.addEdge
        (edge view.1 .viewDependsOn source.1 (sourceType.map Ascii.lower) provenance)
  | .foreignKey source target constraint =>
      let source := g.ensureObject profile source provenance
      let target := source.2.ensureObject profile target provenance
      target.2.addEdge (edge source.1 .foreignKey target.1 (some constraint) provenance)
  | .usesStage object stage =>
      let object := g.ensureObject profile object provenance
      let stage := object.2.ensureNamed profile stage .stage provenance
      stage.2.addEdge (edge object.1 .usesStage stage.1 none provenance)
  | .usesFileFormat object fileFormat =>
      let object := g.ensureObject profile object provenance
      let format := object.2.ensureNamed profile fileFormat .fileFormat provenance
      format.2.addEdge (edge object.1 .usesFileFormat format.1 none provenance)
  | .stageUsesFileFormat stage fileFormat =>
      let stage := g.ensureNamed profile stage .stage provenance
      let format := stage.2.ensureNamed profile fileFormat .fileFormat provenance
      format.2.addEdge (edge stage.1 .usesFileFormat format.1 none provenance)

def addTag (g : CatalogGraph) (profile : Text) (provenance : Provenance) (tag : TagAssignment) :
    CatalogGraph :=
  let tagNode := tagKey profile tag.tag
  let g := g.ensureNode (node tagNode .tag ("tag:".toList ++ tag.tag.qualified)
    (some tag.tag.qualified) provenance)
  let object := g.ensureObject profile tag.object provenance
  match tag.column with
  | some column =>
      let key := columnKey profile tag.object.database tag.object.schema tag.object.name column
      object.2.ensureNode (node key .column ("column:".toList ++ column)
          (some (tag.object.qualified ++ ".".toList ++ column)) provenance)
        |>.addEdge (edge object.1 .contains key none provenance)
        |>.addEdge (edge key .tagged tagNode tag.value provenance)
  | none => object.2.addEdge (edge object.1 .tagged tagNode tag.value provenance)

/-- Stages, file formats, relations and tags of the relation pass. -/
def addRelations (g : CatalogGraph) (profile : Text) (s : RelationSnapshot) : CatalogGraph :=
  let provenance := s.provenance
  let g := s.stages.foldl
    (fun g stage ↦ (g.ensureNamed profile stage.stage .stage provenance).2) g
  let g := s.fileFormats.foldl
    (fun g format ↦ (g.ensureNamed profile format.fileFormat .fileFormat provenance).2) g
  let g := s.relations.foldl (fun g relation ↦ g.addRelation profile provenance relation) g
  s.tags.foldl (fun g tag ↦ g.addTag profile provenance tag) g

end CatalogGraph

/-- The profile of the dataset of a column, of the last one with its id. -/
def columnProfile (s : RelationSnapshot) (column : ColumnCatalogEntry) : Text :=
  ((SortedMap.ofList (s.datasets.map fun dataset ↦ (dataset.id, dataset.profile))).get?
    column.datasetId).getD s.provenance.profileFingerprint

/-- The profile of the relation pass: that of the first dataset. -/
def relationProfile (s : RelationSnapshot) : Text :=
  s.datasets.head?.elim s.provenance.profileFingerprint (·.profile)

/-- Build a graph from a snapshot. -/
def CatalogGraph.fromSnapshot (s : RelationSnapshot) : CatalogGraph :=
  let g := s.datasets.foldl addDataset new
  let g := s.columns.foldl
    (fun g column ↦ g.addColumn (columnProfile s column) column s.provenance) g
  let g := s.datasets.foldl addDatasetEdges g
  g.addRelations (relationProfile s) s

end FrankenSnowflake.Graph
