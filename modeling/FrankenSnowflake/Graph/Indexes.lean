import FrankenSnowflake.Graph.NodeKeys

/-!
# The indexes of a graph

The adjacency rows hold the positions of the edges of their node, and the edge keys
those of the edges, whatever order nodes and edges are added in.  So a graph is read
back from its nodes and edges alone.
-/

namespace FrankenSnowflake.Graph

open Foundation Catalog

namespace CatalogGraph

/-- Rebuild the rows and the edge keys; of edges that share a key, the first is kept. -/
def rebuildIndexes (g : CatalogGraph) : CatalogGraph :=
  g.edges.foldl addEdge
    { nodes := g.nodes
      edges := []
      outgoing := g.nodes.keys.foldl ensureRow .empty
      incoming := g.nodes.keys.foldl ensureRow .empty
      edgeKeys := [] }

/-- What a graph is deserialised to: its serialised form has its nodes and edges. -/
def ofWire (nodes : SortedMap NodeKey CatalogNode) (edges : List CatalogEdge) : CatalogGraph :=
  rebuildIndexes ⟨nodes, edges, .empty, .empty, []⟩

/-- The graphs that a caller can have. -/
inductive Built : CatalogGraph → Prop where
  | new : Built .new
  | addNode {g : CatalogGraph} (node : CatalogNode) : Built g → Built (g.addNode node)
  | addEdge {g : CatalogGraph} (edge : CatalogEdge) : Built g → Built (g.addEdge edge)
  | ofWire (nodes : SortedMap NodeKey CatalogNode) (edges : List CatalogEdge) :
      Built (ofWire nodes edges)

end CatalogGraph

open CatalogGraph

/-! ## Rows -/

/-- The positions of the edges with an end at a node. -/
def positions (endOf : CatalogEdge → NodeKey) (key : NodeKey) (edges : List CatalogEdge) :
    List Nat :=
  (edges.zipIdx.filter fun p ↦ endOf p.1 = key).map Prod.snd

theorem positions_append (endOf : CatalogEdge → NodeKey) (key : NodeKey)
    (edges : List CatalogEdge) (edge : CatalogEdge) : positions endOf key (edges ++ [edge]) =
      positions endOf key edges ++ if endOf edge = key then [edges.length] else [] := by
  rw [positions, List.zipIdx_append, List.filter_append, List.map_append, positions]
  congr 1
  by_cases hkey : endOf edge = key
  · simp [hkey]
  · simp [hkey]

theorem positions_eq_nil {endOf : CatalogEdge → NodeKey} {key : NodeKey}
    {edges : List CatalogEdge} (h : ∀ e ∈ edges, endOf e ≠ key) : positions endOf key edges = [] := by
  rw [positions, List.map_eq_nil_iff, List.filter_eq_nil_iff]
  rintro ⟨e, i⟩ hmem
  have he : e ∈ edges := List.fst_mem_of_mem_zipIdx hmem
  simpa using h e he

/-- The edges at the positions of a node are its edges. -/
theorem filterMap_positions (endOf : CatalogEdge → NodeKey) (key : NodeKey)
    (edges : List CatalogEdge) :
    (positions endOf key edges).filterMap (edges[·]?) = edges.filter fun e ↦ endOf e = key := by
  induction edges using List.reverseRecOn with
  | nil => rfl
  | append_singleton edges edge ih =>
      have hold : (positions endOf key edges).filterMap ((edges ++ [edge])[·]?) =
          (positions endOf key edges).filterMap (edges[·]?) := by
        refine List.filterMap_congr fun i hi ↦ ?_
        obtain ⟨⟨e, j⟩, hmem, rfl⟩ := List.mem_map.mp hi
        have hlt : j < edges.length := by
          have h := List.snd_lt_of_mem_zipIdx (List.mem_of_mem_filter hmem)
          simpa using h
        exact List.getElem?_append_left hlt
      rw [positions_append, List.filterMap_append, hold, ih, List.filter_append]
      congr 1
      by_cases hkey : endOf edge = key
      · simp [hkey]
      · simp [hkey]

/-- The row that a node should have. -/
def rowOf (endOf : CatalogEdge → NodeKey) (g : CatalogGraph) (key : NodeKey) : Option (List Nat) :=
  if g.containsKey key ∨ ∃ e ∈ g.edges, endOf e = key then some (positions endOf key g.edges)
  else none

theorem getD_rowOf (endOf : CatalogEdge → NodeKey) (g : CatalogGraph) (key : NodeKey) :
    (rowOf endOf g key).getD [] = positions endOf key g.edges := by
  rw [rowOf]
  split_ifs with h
  · rfl
  · exact (positions_eq_nil fun e he hkey ↦ h (.inr ⟨e, he, hkey⟩)).symm

theorem get?_ensureRow (m : SortedMap NodeKey (List Nat)) (key k : NodeKey) :
    (ensureRow m key).get? k = if k = key then some ((m.get? key).getD []) else m.get? k := by
  rw [ensureRow]
  by_cases hk : k = key
  · subst hk
    rw [if_pos rfl]
    cases hrow : m.get? k with
    | none => simp [SortedMap.get?_insert]
    | some row => simp [hrow]
  · rw [if_neg hk]
    split_ifs
    · rfl
    · rw [SortedMap.get?_insert, if_neg hk]

/-- The rows and edge keys are those of the nodes and edges. -/
structure Indexed (g : CatalogGraph) : Prop where
  keys : g.edgeKeys = (g.edges.map CatalogEdge.edgeKey).reverse
  distinct : (g.edges.map CatalogEdge.edgeKey).Nodup
  outgoing : ∀ key, g.outgoing.get? key = rowOf CatalogEdge.source g key
  incoming : ∀ key, g.incoming.get? key = rowOf CatalogEdge.target g key

section Steps

variable {g : CatalogGraph} {m : SortedMap NodeKey (List Nat)} {endOf : CatalogEdge → NodeKey}

theorem rowOf_addNode (h : ∀ key, m.get? key = rowOf endOf g key) (n : CatalogNode)
    (key : NodeKey) : (ensureRow m n.key).get? key = rowOf endOf (g.addNode n) key := by
  have hedges : (g.addNode n).edges = g.edges := rfl
  rw [get?_ensureRow, h, h, getD_rowOf, rowOf, rowOf, hedges]
  by_cases hkey : key = n.key
  · subst hkey
    rw [if_pos rfl, if_pos (.inl (containsKey_addNode.mpr (.inl rfl)))]
  · have hcontains : (g.addNode n).containsKey key ↔ g.containsKey key := by
      rw [containsKey_addNode]
      exact or_iff_right hkey
    rw [if_neg hkey]
    simp only [hcontains]

theorem rowOf_addEdge (h : ∀ key, m.get? key = rowOf endOf g key) {g' : CatalogGraph}
    {edge : CatalogEdge} (hnodes : g'.nodes = g.nodes) (hedges : g'.edges = g.edges ++ [edge])
    (key : NodeKey) :
    (addIndex m (endOf edge) g.edges.length).get? key = rowOf endOf g' key := by
  have hcontains : g'.containsKey key = g.containsKey key := by
    rw [containsKey, containsKey, hnodes]
  rw [addIndex, SortedMap.get?_insert, h, h, getD_rowOf, rowOf, rowOf, hedges, hcontains,
    positions_append]
  by_cases hkey : key = endOf edge
  · subst hkey
    rw [if_pos rfl, if_pos rfl, if_pos]
    exact .inr ⟨edge, List.mem_append_right _ (List.mem_singleton_self _), rfl⟩
  · rw [if_neg hkey, if_neg (Ne.symm hkey), List.append_nil]
    have hends : (∃ e ∈ g.edges ++ [edge], endOf e = key) ↔ ∃ e ∈ g.edges, endOf e = key := by
      simp only [List.mem_append, List.mem_singleton, or_and_right, exists_or, exists_eq_left]
      exact or_iff_left (Ne.symm hkey)
    simp only [hends]

theorem Indexed.addNode (h : Indexed g) (n : CatalogNode) : Indexed (g.addNode n) where
  keys := h.keys
  distinct := h.distinct
  outgoing := rowOf_addNode h.outgoing n
  incoming := rowOf_addNode h.incoming n

theorem Indexed.addEdge (h : Indexed g) (edge : CatalogEdge) : Indexed (g.addEdge edge) := by
  unfold CatalogGraph.addEdge
  split_ifs with hkey
  · exact h
  · refine ⟨?_, ?_, rowOf_addEdge h.outgoing rfl rfl, rowOf_addEdge h.incoming rfl rfl⟩
    · dsimp only
      rw [List.map_append, List.reverse_append, ← h.keys]
      rfl
    · dsimp only
      rw [List.map_append, List.nodup_append]
      refine ⟨h.distinct, List.nodup_singleton _, fun k hk l hl ↦ ?_⟩
      obtain rfl := List.mem_singleton.mp hl
      rintro rfl
      rw [h.keys, List.mem_reverse] at hkey
      exact hkey hk

end Steps

theorem indexed_new : Indexed .new := by
  refine ⟨rfl, List.nodup_nil, fun key ↦ ?_, fun key ↦ ?_⟩ <;>
    exact (if_neg (by rintro (h | ⟨e, he, -⟩); exacts [Bool.false_ne_true h, List.not_mem_nil he])).symm

/-- A fold keeps the indexes of a graph if every step does. -/
theorem Indexed.foldl_addEdge {g : CatalogGraph} (h : Indexed g) (edges : List CatalogEdge) :
    Indexed (edges.foldl CatalogGraph.addEdge g) := by
  induction edges generalizing g with
  | nil => exact h
  | cons edge edges ih => exact ih (h.addEdge edge)

theorem get?_foldl_ensureRow (keys : List NodeKey) (m : SortedMap NodeKey (List Nat))
    (key : NodeKey) :
    (key ∈ keys → (keys.foldl ensureRow m).get? key = some ((m.get? key).getD [])) ∧
      (key ∉ keys → (keys.foldl ensureRow m).get? key = m.get? key) := by
  induction keys generalizing m with
  | nil => exact ⟨fun h ↦ absurd h List.not_mem_nil, fun _ ↦ rfl⟩
  | cons k keys ih =>
      obtain ⟨hmem, hnot⟩ := ih (ensureRow m k)
      rw [get?_ensureRow] at hmem hnot
      rw [List.foldl_cons, List.mem_cons, not_or]
      by_cases hk : key = k
      · subst hk
        simp only [if_true, Option.getD_some] at hmem hnot
        refine ⟨fun _ ↦ ?_, fun h ↦ absurd rfl h.1⟩
        by_cases hkeys : key ∈ keys
        · exact hmem hkeys
        · exact hnot hkeys
      · simp only [hk, if_false] at hmem hnot
        exact ⟨fun h ↦ hmem (h.resolve_left hk), fun h ↦ hnot h.2⟩

theorem indexed_ofWire (nodes : SortedMap NodeKey CatalogNode) (edges : List CatalogEdge) :
    Indexed (ofWire nodes edges) := by
  refine Indexed.foldl_addEdge ?_ edges
  have hrow : ∀ endOf : CatalogEdge → NodeKey, ∀ key,
      (nodes.keys.foldl ensureRow SortedMap.empty).get? key =
        if (nodes.get? key).isSome ∨ ∃ e ∈ ([] : List CatalogEdge), endOf e = key then
          some (positions endOf key []) else none := by
    intro endOf key
    obtain ⟨hmem, hnot⟩ := get?_foldl_ensureRow nodes.keys .empty key
    rw [SortedMap.mem_keys] at hmem hnot
    by_cases hkey : (nodes.get? key).isSome
    · rw [hmem hkey, if_pos (.inl hkey)]
      rfl
    · rw [hnot hkey, if_neg]
      · rfl
      · rintro (h | ⟨e, he, -⟩)
        · exact hkey h
        · exact List.not_mem_nil he
  exact ⟨rfl, List.nodup_nil, hrow _, hrow _⟩

/-- The rows and edge keys of every graph are those of its nodes and edges. -/
theorem CatalogGraph.Built.indexed {g : CatalogGraph} (h : Built g) : Indexed g := by
  induction h with
  | new => exact indexed_new
  | addNode n _ ih => exact ih.addNode n
  | addEdge e _ ih => exact ih.addEdge e
  | ofWire nodes edges => exact indexed_ofWire nodes edges

/-! ## Serialisation -/

theorem edges_foldl_addEdge {g : CatalogGraph} (h : Indexed g) {edges : List CatalogEdge}
    (hdistinct : ((g.edges ++ edges).map CatalogEdge.edgeKey).Nodup) :
    (edges.foldl CatalogGraph.addEdge g).edges = g.edges ++ edges := by
  induction edges generalizing g with
  | nil => exact (List.append_nil _).symm
  | cons edge edges ih =>
      have hnew : edge.edgeKey ∉ g.edgeKeys := by
        rw [h.keys, List.mem_reverse]
        intro hmem
        rw [List.map_append, List.nodup_append] at hdistinct
        exact hdistinct.2.2 _ hmem _ List.mem_cons_self rfl
      have hedges : (g.addEdge edge).edges = g.edges ++ [edge] := by
        rw [CatalogGraph.addEdge, if_neg hnew]
      have hsplit : (g.addEdge edge).edges ++ edges = g.edges ++ edge :: edges := by
        rw [hedges, List.append_assoc]
        rfl
      rw [List.foldl_cons, ih (h.addEdge edge) (hsplit ▸ hdistinct), hsplit]

theorem nodes_foldl_addEdge (g : CatalogGraph) (edges : List CatalogEdge) :
    (edges.foldl CatalogGraph.addEdge g).nodes = g.nodes := by
  induction edges generalizing g with
  | nil => rfl
  | cons edge edges ih => rw [List.foldl_cons, ih, nodes_addEdge]

/-- A graph is its nodes, its edges and what is indexed of them. -/
theorem Indexed.ext {g g' : CatalogGraph} (h : Indexed g) (h' : Indexed g')
    (hnodes : g.nodes = g'.nodes) (hedges : g.edges = g'.edges) : g = g' := by
  have hrow : ∀ endOf key, rowOf endOf g key = rowOf endOf g' key := by
    intro endOf key
    rw [rowOf, rowOf, hedges, containsKey, containsKey, hnodes]
  have hkeys : g.edgeKeys = g'.edgeKeys := by rw [h.keys, h'.keys, hedges]
  have houtgoing : g.outgoing = g'.outgoing :=
    SortedMap.ext fun key ↦ by rw [h.outgoing, h'.outgoing, hrow]
  have hincoming : g.incoming = g'.incoming :=
    SortedMap.ext fun key ↦ by rw [h.incoming, h'.incoming, hrow]
  cases g
  cases g'
  simp only at hnodes hedges houtgoing hincoming hkeys
  rw [hnodes, hedges, houtgoing, hincoming, hkeys]

/-- Deserialising what a graph is serialised to gives the graph back, with its rows and
edge keys. -/
theorem ofWire_eq {g : CatalogGraph} (h : Built g) : ofWire g.nodes g.edges = g := by
  have hindexed := h.indexed
  refine (indexed_ofWire g.nodes g.edges).ext hindexed (nodes_foldl_addEdge _ _) ?_
  have hcleared : Indexed (ofWire g.nodes []) := indexed_ofWire g.nodes []
  exact edges_foldl_addEdge (g := ofWire g.nodes []) hcleared hindexed.distinct

/-- Provenance that says nothing. -/
def noProvenance : Provenance := ⟨.fixture, .fixture, [], [], [], [], [], [], []⟩

/-- The object `a` reads `b`, and `b` reads `c`. -/
def chainGraph : CatalogGraph :=
  CatalogGraph.new.addNode (node ['a'] .object ['a'] none noProvenance)
    |>.addNode (node ['b'] .object ['b'] none noProvenance)
    |>.addNode (node ['c'] .object ['c'] none noProvenance)
    |>.addEdge (edge ['a'] .viewDependsOn ['b'] none noProvenance)
    |>.addEdge (edge ['b'] .viewDependsOn ['c'] none noProvenance)

theorem built_chainGraph : Built chainGraph :=
  .addEdge _ (.addEdge _ (.addNode _ (.addNode _ (.addNode _ .new))))

theorem ofWire_chainGraph : ofWire chainGraph.nodes chainGraph.edges = chainGraph :=
  ofWire_eq built_chainGraph

/-! ## Graphs of snapshots -/

namespace CatalogGraph.Built

variable {g : CatalogGraph}

theorem foldl {β : Type} {f : CatalogGraph → β → CatalogGraph} (hf : ∀ {g} b, Built g → Built (f g b))
    (bs : List β) (h : Built g) : Built (bs.foldl f g) := by
  induction bs generalizing g with
  | nil => exact h
  | cons b bs ih => exact ih (hf b h)

theorem ensureNode (h : Built g) (n : CatalogNode) : Built (g.ensureNode n) := by
  unfold CatalogGraph.ensureNode
  split_ifs
  · exact h
  · exact h.addNode n

theorem addDataset (dataset : DatasetManifest) (h : Built g) : Built (g.addDataset dataset) := by
  unfold CatalogGraph.addDataset
  exact .addEdge _ (.addEdge _ (.addEdge _ (.addEdge _ (.addNode _ (.addNode _ (.addNode _
    (.addNode _ (.addNode _ h))))))))

theorem addColumn (h : Built g) (profile : Text) (column : ColumnCatalogEntry)
    (provenance : Provenance) : Built (g.addColumn profile column provenance) := by
  unfold CatalogGraph.addColumn
  exact .addEdge _ (.addNode _ h)

theorem addFieldEdges (h : Built g) (dataset : DatasetManifest) (field : DatasetField) :
    Built (g.addFieldEdges dataset field) := by
  unfold CatalogGraph.addFieldEdges
  refine .addEdge _ ?_
  split_ifs
  · exact h
  · exact .addEdge _ (.addNode _ h)

theorem addDatasetEdges (dataset : DatasetManifest) (h : Built g) :
    Built (g.addDatasetEdges dataset) :=
  h.foldl (fun field hg ↦ hg.addFieldEdges dataset field) dataset.fields

theorem ensureSchema (h : Built g) (profile : Text) (object : ObjectRef) (provenance : Provenance) :
    Built (g.ensureSchema profile object provenance).2 := by
  unfold CatalogGraph.ensureSchema
  exact .addEdge _ (.addEdge _ (((h.ensureNode _).ensureNode _).ensureNode _))

theorem ensureObject (h : Built g) (profile : Text) (object : ObjectRef) (provenance : Provenance) :
    Built (g.ensureObject profile object provenance).2 := by
  unfold CatalogGraph.ensureObject
  dsimp only
  split_ifs
  · exact h
  · exact .addEdge _ (.addNode _ (h.ensureSchema profile object provenance))

theorem ensureNamed (h : Built g) (profile : Text) (object : ObjectRef) (kind : CatalogNodeKind)
    (provenance : Provenance) : Built (g.ensureNamed profile object kind provenance).2 := by
  have hschema := h.ensureSchema profile object provenance
  unfold CatalogGraph.ensureNamed
  dsimp only
  split_ifs
  · exact hschema
  · exact .addEdge _ (.addNode _ hschema)

theorem addRelation (h : Built g) (profile : Text) (provenance : Provenance)
    (relation : CatalogRelation) : Built (g.addRelation profile provenance relation) := by
  cases relation with
  | viewDependsOn view source sourceType =>
      exact .addEdge _ ((h.ensureObject profile view provenance).ensureObject profile source _)
  | foreignKey source target constraint =>
      exact .addEdge _ ((h.ensureObject profile source provenance).ensureObject profile target _)
  | usesStage object stage =>
      exact .addEdge _ ((h.ensureObject profile object provenance).ensureNamed profile stage _ _)
  | usesFileFormat object fileFormat =>
      exact .addEdge _ ((h.ensureObject profile object provenance).ensureNamed profile fileFormat _ _)
  | stageUsesFileFormat stage fileFormat =>
      exact .addEdge _ ((h.ensureNamed profile stage _ provenance).ensureNamed profile fileFormat _ _)

theorem addTag (h : Built g) (profile : Text) (provenance : Provenance) (tag : TagAssignment) :
    Built (g.addTag profile provenance tag) := by
  have hobject := (h.ensureNode (node (tagKey profile tag.tag) .tag
    ("tag:".toList ++ tag.tag.qualified) (some tag.tag.qualified) provenance)).ensureObject profile
      tag.object provenance
  unfold CatalogGraph.addTag
  cases tag.column with
  | some column => exact .addEdge _ (.addEdge _ (hobject.ensureNode _))
  | none => exact .addEdge _ hobject

/-- The graph of a snapshot is one that a caller can have. -/
theorem fromSnapshot (s : RelationSnapshot) : Built (.fromSnapshot s) := by
  have hdatasets := Built.new.foldl addDataset s.datasets
  have hcolumns := hdatasets.foldl
    (fun column hg ↦ hg.addColumn (columnProfile s column) column s.provenance) s.columns
  have hedges := hcolumns.foldl addDatasetEdges s.datasets
  have hstages := hedges.foldl (fun (stage : StageEntry) hg ↦
    hg.ensureNamed (relationProfile s) stage.stage .stage s.provenance) s.stages
  have hformats := hstages.foldl (fun (format : FileFormatEntry) hg ↦
    hg.ensureNamed (relationProfile s) format.fileFormat .fileFormat s.provenance) s.fileFormats
  have hrelations := hformats.foldl (fun relation hg ↦
    hg.addRelation (relationProfile s) s.provenance relation) s.relations
  exact hrelations.foldl (fun tag hg ↦ hg.addTag (relationProfile s) s.provenance tag) s.tags

end CatalogGraph.Built

end FrankenSnowflake.Graph
