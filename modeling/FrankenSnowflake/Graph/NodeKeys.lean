import FrankenSnowflake.Graph.Entity

/-!
# Entities and nodes

Every node of the graph of a snapshot is that of an entity the snapshot names, and
every edge joins two entities it relates.  An entity has a node of its own as long
as no identifier runs on over another entity's.
-/

namespace FrankenSnowflake.Graph

open Foundation Catalog

variable {s : RelationSnapshot} {g g' : CatalogGraph} {e e' : Entity}

/-! ## What a snapshot names -/

def datasetObject (dataset : DatasetManifest) : ObjectRef :=
  ⟨dataset.database, dataset.schema, dataset.object⟩

def columnObject (column : ColumnCatalogEntry) : ObjectRef :=
  ⟨column.database, column.schema, column.object⟩

/-- The two entities of a relation. -/
def relationEnds (profile : Text) : CatalogRelation → Entity × Entity
  | .viewDependsOn view source _ => (.object profile view, .object profile source)
  | .foreignKey source target _ => (.object profile source, .object profile target)
  | .usesStage object stage => (.object profile object, .stage profile stage)
  | .usesFileFormat object format => (.object profile object, .fileFormat profile format)
  | .stageUsesFileFormat stage format => (.stage profile stage, .fileFormat profile format)

/-- What a tag is set on. -/
def taggedEntity (profile : Text) (tag : TagAssignment) : Entity :=
  match tag.column with
  | some column => .column profile tag.object column
  | none => .object profile tag.object

/-- The entities of a dataset. -/
def datasetEntities (dataset : DatasetManifest) : List Entity :=
  .dataset dataset.id :: (Entity.object dataset.profile (datasetObject dataset)).chain ++
    dataset.fields.map fun field ↦ .column dataset.profile (datasetObject dataset) field.column

/-- The entities of the relation pass. -/
def relationEntities (s : RelationSnapshot) (profile : Text) : List Entity :=
  s.stages.map (fun stage ↦ .stage profile stage.stage) ++
    s.fileFormats.map (fun format ↦ .fileFormat profile format.fileFormat) ++
    s.relations.flatMap (fun r ↦ [(relationEnds profile r).1, (relationEnds profile r).2]) ++
    s.tags.flatMap fun tag ↦
      [.tag profile tag.tag, .object profile tag.object, taggedEntity profile tag]

/-- The entities that entries of a snapshot are about. -/
def mentioned (s : RelationSnapshot) : List Entity :=
  s.datasets.flatMap datasetEntities ++
    s.columns.map (fun c ↦ .column (columnProfile s c) (columnObject c) c.column) ++
    relationEntities s (relationProfile s)

/-- The entities that a snapshot names: those, and what they are in. -/
def named (s : RelationSnapshot) : List Entity := (mentioned s).flatMap Entity.chain

theorem mem_named (h : e ∈ mentioned s) (h' : e' ∈ e.chain) : e' ∈ named s :=
  List.mem_flatMap.mpr ⟨e, h, h'⟩

theorem container_mem_named (h : e' ∈ named s) (hc : e'.container = some e) : e ∈ named s := by
  obtain ⟨m, hm, hmem⟩ := List.mem_flatMap.mp h
  exact mem_named hm (Entity.container_mem_chain hmem hc)

/-- What a snapshot relates: what is in what, the object and the columns of a dataset,
the relations and the tags. -/
inductive Relates (s : RelationSnapshot) : Entity → CatalogEdgeKind → Option Text → Entity → Prop where
  | contains {e e' : Entity} (h : e' ∈ named s) (hc : e'.container = some e) :
      Relates s e .contains none e'
  | datasetObject {d : DatasetManifest} (h : d ∈ s.datasets) :
      Relates s (.dataset d.id) .datasetObject none (.object d.profile (datasetObject d))
  | fieldColumn {d : DatasetManifest} {f : DatasetField} (h : d ∈ s.datasets) (hf : f ∈ d.fields) :
      Relates s (.dataset d.id) .fieldColumn (some (fieldRoleLabel f.role).toList)
        (.column d.profile (Graph.datasetObject d) f.column)
  | viewDependsOn {view source : ObjectRef} {type : Option Text}
      (h : .viewDependsOn view source type ∈ s.relations) :
      Relates s (.object (relationProfile s) view) .viewDependsOn (type.map Ascii.lower)
        (.object (relationProfile s) source)
  | foreignKey {source target : ObjectRef} {constraint : Text}
      (h : .foreignKey source target constraint ∈ s.relations) :
      Relates s (.object (relationProfile s) source) .foreignKey (some constraint)
        (.object (relationProfile s) target)
  | usesStage {object stage : ObjectRef} (h : .usesStage object stage ∈ s.relations) :
      Relates s (.object (relationProfile s) object) .usesStage none
        (.stage (relationProfile s) stage)
  | usesFileFormat {object format : ObjectRef} (h : .usesFileFormat object format ∈ s.relations) :
      Relates s (.object (relationProfile s) object) .usesFileFormat none
        (.fileFormat (relationProfile s) format)
  | stageUsesFileFormat {stage format : ObjectRef}
      (h : .stageUsesFileFormat stage format ∈ s.relations) :
      Relates s (.stage (relationProfile s) stage) .usesFileFormat none
        (.fileFormat (relationProfile s) format)
  | tagged {tag : TagAssignment} (h : tag ∈ s.tags) :
      Relates s (taggedEntity (relationProfile s) tag) .tagged tag.value
        (.tag (relationProfile s) tag.tag)

/-! ## What a step adds -/

/-- The node is that of the entity. -/
structure Describes (n : CatalogNode) (e : Entity) : Prop where
  key : n.key = e.key
  kind : n.kind = e.kind
  qualifiedName : n.qualifiedName = e.qualifiedName

/-- From one graph to another no key is lost, every new node is that of an entity the
snapshot names, and every new edge joins two entities that it relates. -/
structure Grows (s : RelationSnapshot) (g g' : CatalogGraph) : Prop where
  keeps : ∀ {k}, g.containsKey k → g'.containsKey k
  nodes : ∀ {k n}, g'.nodes.get? k = some n →
    g.nodes.get? k = some n ∨ ∃ e ∈ named s, e.key = k ∧ Describes n e
  edges : ∀ {x}, x ∈ g'.edges → x ∈ g.edges ∨
    ∃ e e', Relates s e x.kind x.detail e' ∧ x.source = e.key ∧ x.target = e'.key

theorem Grows.refl (g : CatalogGraph) : Grows s g g := ⟨id, Or.inl, Or.inl⟩

theorem Grows.trans {g'' : CatalogGraph} (h : Grows s g g') (h' : Grows s g' g'') :
    Grows s g g'' where
  keeps hk := h'.keeps (h.keeps hk)
  nodes hn := (h'.nodes hn).elim h.nodes Or.inr
  edges hx := (h'.edges hx).elim h.edges Or.inr

@[simp] theorem nodes_addEdge (g : CatalogGraph) (x : CatalogEdge) :
    (g.addEdge x).nodes = g.nodes := by
  unfold CatalogGraph.addEdge
  split_ifs <;> rfl

@[simp] theorem containsKey_addEdge (g : CatalogGraph) (x : CatalogEdge) (k : NodeKey) :
    (g.addEdge x).containsKey k = g.containsKey k := by
  rw [CatalogGraph.containsKey, nodes_addEdge, CatalogGraph.containsKey]

theorem containsKey_addNode {n : CatalogNode} {k : NodeKey} :
    (g.addNode n).containsKey k ↔ k = n.key ∨ g.containsKey k := by
  rw [CatalogGraph.containsKey, CatalogGraph.addNode, SortedMap.get?_insert]
  by_cases hk : k = n.key <;> simp [hk, CatalogGraph.containsKey]

theorem containsKey_ensureNode {n : CatalogNode} {k : NodeKey} :
    (g.ensureNode n).containsKey k ↔ k = n.key ∨ g.containsKey k := by
  unfold CatalogGraph.ensureNode
  split_ifs with h
  · constructor
    · exact Or.inr
    · rintro (rfl | hk)
      · exact h
      · exact hk
  · exact containsKey_addNode

theorem Grows.addNode {n : CatalogNode} (he : e ∈ named s) (hn : Describes n e) :
    Grows s g (g.addNode n) where
  keeps hk := containsKey_addNode.mpr (Or.inr hk)
  nodes {k m} hm := by
    rw [CatalogGraph.addNode, SortedMap.get?_insert] at hm
    split_ifs at hm with hk
    · obtain rfl := Option.some.inj hm
      exact Or.inr ⟨e, he, by rw [hk, hn.key], hn⟩
    · exact Or.inl hm
  edges := Or.inl

theorem Grows.ensureNode {n : CatalogNode} (he : e ∈ named s) (hn : Describes n e) :
    Grows s g (g.ensureNode n) := by
  unfold CatalogGraph.ensureNode
  split_ifs with h
  · exact .refl g
  · exact .addNode he hn

theorem Grows.addEdge {x : CatalogEdge} (h : Relates s e x.kind x.detail e')
    (hs : x.source = e.key) (ht : x.target = e'.key) : Grows s g (g.addEdge x) where
  keeps hk := by rwa [containsKey_addEdge]
  nodes hn := Or.inl (by rwa [nodes_addEdge] at hn)
  edges {y} hy := by
    unfold CatalogGraph.addEdge at hy
    split_ifs at hy with hmem
    · exact Or.inl hy
    · rcases List.mem_append.mp hy with hy | hy
      · exact Or.inl hy
      · obtain rfl := List.mem_singleton.mp hy
        exact Or.inr ⟨e, e', h, hs, ht⟩

/-- The edge between an entity and what contains it. -/
theorem Grows.contains {source target : NodeKey} {p : Provenance} (he : e' ∈ named s)
    (hc : e'.container = some e) (hs : source = e.key) (ht : target = e'.key) :
    Grows s g (g.addEdge (edge source .contains target none p)) :=
  .addEdge (.contains he hc) hs ht

theorem Grows.foldl {β : Type*} {f : CatalogGraph → β → CatalogGraph} {l : List β}
    (h : ∀ b ∈ l, ∀ g, Grows s g (f g b)) (g : CatalogGraph) : Grows s g (l.foldl f g) := by
  induction l generalizing g with
  | nil => exact .refl g
  | cons b l ih =>
      exact (h b List.mem_cons_self g).trans
        (ih (fun b hb ↦ h b (List.mem_cons_of_mem _ hb)) (f g b))

/-- A key that one step of a run adds is there at its end. -/
theorem containsKey_foldl {β : Type*} {f : CatalogGraph → β → CatalogGraph} {l : List β} {b : β}
    {k : NodeKey} (h : ∀ b ∈ l, ∀ g, Grows s g (f g b)) (hb : b ∈ l)
    (hk : ∀ g, (f g b).containsKey k) (g : CatalogGraph) : (l.foldl f g).containsKey k := by
  induction l generalizing g with
  | nil => exact absurd hb List.not_mem_nil
  | cons c l ih =>
      have htail : ∀ b ∈ l, ∀ g, Grows s g (f g b) :=
        fun b hb ↦ h b (List.mem_cons_of_mem _ hb)
      rcases List.mem_cons.mp hb with rfl | hb
      · exact (Grows.foldl htail (f g b)).keeps (hk g)
      · exact ih htail hb (f g c)

/-! ## Datasets and columns -/

section Datasets

variable {d : DatasetManifest} {c : ColumnCatalogEntry} {f : DatasetField}

theorem mem_mentioned_of_dataset (hd : d ∈ s.datasets) (he : e ∈ datasetEntities d) :
    e ∈ mentioned s :=
  List.mem_append_left _ (List.mem_append_left _ (List.mem_flatMap.mpr ⟨d, hd, he⟩))

theorem mem_named_of_dataset (hd : d ∈ s.datasets) (he : e ∈ datasetEntities d) : e ∈ named s :=
  mem_named (mem_mentioned_of_dataset hd he) e.mem_chain

theorem addDataset_grows (hd : d ∈ s.datasets) : Grows s g (g.addDataset d) := by
  have hmem : ∀ {e}, e ∈ datasetEntities d → e ∈ named s := mem_named_of_dataset hd
  have hobject : Entity.object d.profile (datasetObject d) ∈ named s :=
    hmem (by simp [datasetEntities, Entity.chain])
  have hschema := container_mem_named hobject rfl
  have hdatabase := container_mem_named hschema rfl
  have hprofile := container_mem_named hdatabase rfl
  have hdataset : Entity.dataset d.id ∈ named s := hmem (by simp [datasetEntities])
  unfold CatalogGraph.addDataset
  refine .trans ?_ (.addEdge (.datasetObject hd) rfl rfl)
  refine .trans ?_ (.contains hobject rfl rfl rfl)
  refine .trans ?_ (.contains hschema rfl rfl rfl)
  refine .trans ?_ (.contains hdatabase rfl rfl rfl)
  refine .trans ?_ (.addNode hdataset ⟨rfl, rfl, rfl⟩)
  refine .trans ?_ (.addNode hobject ⟨rfl, rfl, rfl⟩)
  refine .trans ?_ (.addNode hschema ⟨rfl, rfl, rfl⟩)
  refine .trans ?_ (.addNode hdatabase ⟨rfl, rfl, rfl⟩)
  exact .addNode hprofile ⟨rfl, rfl, rfl⟩

theorem addDataset_containsKey (g : CatalogGraph)
    (he : e ∈ .dataset d.id :: (Entity.object d.profile (datasetObject d)).chain) :
    (g.addDataset d).containsKey e.key := by
  simp only [Entity.chain, datasetObject, List.mem_cons, List.not_mem_nil, or_false] at he
  simp only [CatalogGraph.addDataset, containsKey_addEdge, containsKey_addNode, node]
  rcases he with rfl | rfl | rfl | rfl | rfl <;> simp [Entity.key]

theorem addColumn_grows (hc : c ∈ s.columns) :
    Grows s g (g.addColumn (columnProfile s c) c s.provenance) := by
  have hcolumn : Entity.column (columnProfile s c) (columnObject c) c.column ∈ named s :=
    mem_named (List.mem_append_left _ (List.mem_append_right _ (List.mem_map.mpr ⟨c, hc, rfl⟩)))
      (Entity.mem_chain _)
  unfold CatalogGraph.addColumn
  exact .trans (.addNode hcolumn ⟨rfl, rfl, rfl⟩) (.contains hcolumn rfl rfl rfl)

theorem addColumn_containsKey (g : CatalogGraph) :
    (g.addColumn (columnProfile s c) c s.provenance).containsKey
      (Entity.column (columnProfile s c) (columnObject c) c.column).key := by
  rw [CatalogGraph.addColumn, containsKey_addEdge, containsKey_addNode]
  exact Or.inl rfl

theorem addFieldEdges_grows (hd : d ∈ s.datasets) (hf : f ∈ d.fields) :
    Grows s g (g.addFieldEdges d f) := by
  have hcolumn : Entity.column d.profile (datasetObject d) f.column ∈ named s :=
    mem_named_of_dataset hd
      (List.mem_append_right _ (List.mem_map.mpr ⟨f, hf, rfl⟩))
  unfold CatalogGraph.addFieldEdges
  refine .trans ?_ (.addEdge (.fieldColumn hd hf) rfl rfl)
  split_ifs
  · exact .refl g
  · exact .trans (.addNode hcolumn ⟨rfl, rfl, rfl⟩) (.contains hcolumn rfl rfl rfl)

theorem addFieldEdges_containsKey (g : CatalogGraph) :
    (g.addFieldEdges d f).containsKey
      (Entity.column d.profile (datasetObject d) f.column).key := by
  rw [CatalogGraph.addFieldEdges, containsKey_addEdge]
  split_ifs with h
  · exact h
  · rw [containsKey_addEdge, CatalogGraph.addDatasetFieldColumnNode, containsKey_addNode]
    exact Or.inl rfl

theorem addDatasetEdges_grows (hd : d ∈ s.datasets) : Grows s g (g.addDatasetEdges d) :=
  .foldl (fun _ hf _ ↦ addFieldEdges_grows hd hf) g

theorem addDatasetEdges_containsKey (hd : d ∈ s.datasets) (hf : f ∈ d.fields) (g : CatalogGraph) :
    (g.addDatasetEdges d).containsKey
      (Entity.column d.profile (datasetObject d) f.column).key :=
  containsKey_foldl (fun _ hf _ ↦ addFieldEdges_grows hd hf) hf addFieldEdges_containsKey g

end Datasets

/-! ## The relation pass -/

section Relations

variable {p : Text} {o : ObjectRef} {q : Provenance} {kind : CatalogNodeKind}

theorem ensureSchema_grows (h : .schema p o.database o.schema ∈ named s) :
    Grows s g (g.ensureSchema p o q).2 := by
  have hdatabase := container_mem_named h rfl
  have hprofile := container_mem_named hdatabase rfl
  unfold CatalogGraph.ensureSchema
  refine .trans ?_ (.contains h rfl rfl rfl)
  refine .trans ?_ (.contains hdatabase rfl rfl rfl)
  refine .trans ?_ (.ensureNode h ⟨rfl, rfl, rfl⟩)
  refine .trans ?_ (.ensureNode hdatabase ⟨rfl, rfl, rfl⟩)
  exact .ensureNode hprofile ⟨rfl, rfl, rfl⟩

/-- The pair is the key of the entity and a graph that has grown to contain it. -/
structure Ensures (s : RelationSnapshot) (g : CatalogGraph) (a : NodeKey × CatalogGraph)
    (e : Entity) : Prop where
  key : a.1 = e.key
  grows : Grows s g a.2
  containsKey : a.2.containsKey e.key

theorem ensureObject_eq : g.ensureObject p o q =
    ((Entity.object p o).key,
      if g.containsKey (Entity.object p o).key then g
      else
        ((g.ensureSchema p o q).2.addNode
          (node (Entity.object p o).key .object ("object:".toList ++ o.qualified)
            (some o.qualified) q)).addEdge
          (edge (Entity.schema p o.database o.schema).key .contains (Entity.object p o).key none
            q)) := by
  by_cases hk : g.containsKey (Entity.object p o).key
  · rw [if_pos hk]
    exact if_pos hk
  · rw [if_neg hk]
    exact if_neg hk

theorem ensureObject_ensures (h : .object p o ∈ named s) :
    Ensures s g (g.ensureObject p o q) (.object p o) := by
  rw [ensureObject_eq]
  refine ⟨rfl, ?_, ?_⟩
  · dsimp only
    split_ifs
    · exact .refl g
    · refine .trans ?_ (.contains h rfl rfl rfl)
      exact .trans (ensureSchema_grows (container_mem_named h rfl)) (.addNode h ⟨rfl, rfl, rfl⟩)
  · dsimp only
    split_ifs with hk
    · exact hk
    · rw [containsKey_addEdge, containsKey_addNode]
      exact Or.inl rfl

/-- The entity that `ensureNamed` makes a node for. -/
structure NamedAs (kind : CatalogNodeKind) (p : Text) (o : ObjectRef) (e : Entity) : Prop where
  key : e.key = schemaKey p o.database o.schema ++ "/".toList ++ kind.asStr.toList ++ ":".toList ++
    o.name
  kind : e.kind = kind
  qualifiedName : e.qualifiedName = some o.qualified
  container : e.container = some (.schema p o.database o.schema)

theorem namedAs_stage : NamedAs .stage p o (.stage p o) := by
  refine ⟨?_, rfl, rfl, rfl⟩
  simp [Entity.key, CatalogNodeKind.asStr]

theorem namedAs_fileFormat : NamedAs .fileFormat p o (.fileFormat p o) := by
  refine ⟨?_, rfl, rfl, rfl⟩
  simp [Entity.key, CatalogNodeKind.asStr]

theorem ensureNamed_eq (h : NamedAs kind p o e) : g.ensureNamed p o kind q =
    (e.key,
      if (g.ensureSchema p o q).2.containsKey e.key then (g.ensureSchema p o q).2
      else
        ((g.ensureSchema p o q).2.addNode
          (node e.key kind (kind.asStr.toList ++ ":".toList ++ o.qualified)
            (some o.qualified) q)).addEdge
          (edge (Entity.schema p o.database o.schema).key .contains e.key none q)) := by
  rw [h.key]
  by_cases hk : (g.ensureSchema p o q).2.containsKey
      (schemaKey p o.database o.schema ++ "/".toList ++ kind.asStr.toList ++ ":".toList ++ o.name)
  · rw [if_pos hk]
    exact if_pos hk
  · rw [if_neg hk]
    exact if_neg hk

theorem ensureNamed_ensures (h : NamedAs kind p o e) (he : e ∈ named s) :
    Ensures s g (g.ensureNamed p o kind q) e := by
  have hschema := ensureSchema_grows (g := g) (q := q) (container_mem_named he h.container)
  rw [ensureNamed_eq h]
  refine ⟨rfl, ?_, ?_⟩
  · dsimp only
    split_ifs
    · exact hschema
    · refine .trans ?_ (.contains he h.container rfl rfl)
      exact .trans hschema (.addNode he ⟨rfl, h.kind.symm, h.qualifiedName.symm⟩)
  · dsimp only
    split_ifs with hk
    · exact hk
    · rw [containsKey_addEdge, containsKey_addNode]
      exact Or.inl rfl

/-- A relation ensures its two ends, one after the other, and joins them. -/
theorem addRelation_spec {r : CatalogRelation} (hr : r ∈ s.relations)
    (h₁ : (relationEnds (relationProfile s) r).1 ∈ named s)
    (h₂ : (relationEnds (relationProfile s) r).2 ∈ named s) (g : CatalogGraph) :
    ∃ a b kind detail, Ensures s g a (relationEnds (relationProfile s) r).1 ∧
      Ensures s a.2 b (relationEnds (relationProfile s) r).2 ∧
      Relates s (relationEnds (relationProfile s) r).1 kind detail
        (relationEnds (relationProfile s) r).2 ∧
      g.addRelation (relationProfile s) q r = b.2.addEdge (edge a.1 kind b.1 detail q) := by
  have hobject : ∀ {g o}, .object (relationProfile s) o ∈ named s →
      Ensures s g (g.ensureObject (relationProfile s) o q) (.object (relationProfile s) o) :=
    ensureObject_ensures
  have hstage : ∀ {g o}, .stage (relationProfile s) o ∈ named s →
      Ensures s g (g.ensureNamed (relationProfile s) o .stage q) (.stage (relationProfile s) o) :=
    ensureNamed_ensures namedAs_stage
  have hformat : ∀ {g o}, .fileFormat (relationProfile s) o ∈ named s →
      Ensures s g (g.ensureNamed (relationProfile s) o .fileFormat q)
        (.fileFormat (relationProfile s) o) :=
    ensureNamed_ensures namedAs_fileFormat
  cases r with
  | viewDependsOn view source type =>
      exact ⟨_, _, _, _, hobject h₁, hobject h₂, .viewDependsOn hr, rfl⟩
  | foreignKey source target constraint =>
      exact ⟨_, _, _, _, hobject h₁, hobject h₂, .foreignKey hr, rfl⟩
  | usesStage object stage =>
      exact ⟨_, _, _, _, hobject h₁, hstage h₂, .usesStage hr, rfl⟩
  | usesFileFormat object format =>
      exact ⟨_, _, _, _, hobject h₁, hformat h₂, .usesFileFormat hr, rfl⟩
  | stageUsesFileFormat stage format =>
      exact ⟨_, _, _, _, hstage h₁, hformat h₂, .stageUsesFileFormat hr, rfl⟩

/-- A relation ensures its two ends and joins them. -/
theorem addRelation_grows {r : CatalogRelation} (hr : r ∈ s.relations)
    (h₁ : (relationEnds (relationProfile s) r).1 ∈ named s)
    (h₂ : (relationEnds (relationProfile s) r).2 ∈ named s) (g : CatalogGraph) :
    Grows s g (g.addRelation (relationProfile s) q r) := by
  obtain ⟨a, b, kind, detail, ha, hb, hrel, heq⟩ := addRelation_spec hr h₁ h₂ g
  rw [heq]
  exact .trans (.trans ha.grows hb.grows) (.addEdge hrel ha.key hb.key)

theorem addRelation_containsKey {r : CatalogRelation} (hr : r ∈ s.relations)
    (h₁ : (relationEnds (relationProfile s) r).1 ∈ named s)
    (h₂ : (relationEnds (relationProfile s) r).2 ∈ named s) (g : CatalogGraph)
    (he : e = (relationEnds (relationProfile s) r).1 ∨
      e = (relationEnds (relationProfile s) r).2) :
    (g.addRelation (relationProfile s) q r).containsKey e.key := by
  obtain ⟨a, b, kind, detail, ha, hb, hrel, heq⟩ := addRelation_spec hr h₁ h₂ g
  rw [heq, containsKey_addEdge]
  rcases he with rfl | rfl
  · exact hb.grows.keeps ha.containsKey
  · exact hb.containsKey

/-- A tag ensures its node, the object and the column it is set on, and joins them. -/
theorem addTag_spec {t : TagAssignment} (ht : t ∈ s.tags)
    (htag : .tag (relationProfile s) t.tag ∈ named s)
    (hobject : .object (relationProfile s) t.object ∈ named s)
    (htagged : taggedEntity (relationProfile s) t ∈ named s) (g : CatalogGraph) :
    Grows s g (g.addTag (relationProfile s) q t) ∧
      ∀ e ∈ [.tag (relationProfile s) t.tag, .object (relationProfile s) t.object,
        taggedEntity (relationProfile s) t],
        (g.addTag (relationProfile s) q t).containsKey e.key := by
  obtain ⟨g₁, hg₁⟩ : ∃ g₁, g₁ = g.ensureNode (node (tagKey (relationProfile s) t.tag) .tag
      ("tag:".toList ++ t.tag.qualified) (some t.tag.qualified) q) := ⟨_, rfl⟩
  have hnode : Grows s g g₁ := hg₁ ▸ .ensureNode htag ⟨rfl, rfl, rfl⟩
  have hkey : g₁.containsKey (Entity.tag (relationProfile s) t.tag).key :=
    hg₁ ▸ containsKey_ensureNode.mpr (Or.inl rfl)
  have hrel := Relates.tagged ht
  unfold CatalogGraph.addTag
  dsimp only
  rw [← hg₁]
  have hobj := ensureObject_ensures (g := g₁) (q := q) hobject
  unfold taggedEntity at htagged hrel ⊢
  cases hc : t.column with
  | none =>
      rw [hc] at hrel
      constructor
      · exact .trans (hnode.trans hobj.grows) (.addEdge hrel hobj.key rfl)
      · intro e he
        simp only [List.mem_cons, List.not_mem_nil, or_false, or_self] at he
        rw [containsKey_addEdge]
        rcases he with rfl | rfl
        · exact hobj.grows.keeps hkey
        · exact hobj.containsKey
  | some c =>
      rw [hc] at htagged hrel
      constructor
      · refine .trans ?_ (.addEdge hrel rfl rfl)
        refine .trans ?_ (.contains htagged rfl hobj.key rfl)
        exact .trans (hnode.trans hobj.grows) (.ensureNode htagged ⟨rfl, rfl, rfl⟩)
      · intro e he
        simp only [List.mem_cons, List.not_mem_nil, or_false] at he
        rw [containsKey_addEdge, containsKey_addEdge, containsKey_ensureNode]
        rcases he with rfl | rfl | rfl
        · exact Or.inr (hobj.grows.keeps hkey)
        · exact Or.inr hobj.containsKey
        · exact Or.inl rfl

theorem mem_named_of_relation (he : e ∈ relationEntities s (relationProfile s)) : e ∈ named s :=
  mem_named (List.mem_append_right _ he) e.mem_chain

theorem stage_ensures {x : StageEntry} (hx : x ∈ s.stages) (g : CatalogGraph) :
    Ensures s g (g.ensureNamed (relationProfile s) x.stage .stage q)
      (.stage (relationProfile s) x.stage) :=
  ensureNamed_ensures namedAs_stage (mem_named_of_relation (by
    simp only [relationEntities, List.mem_append, List.mem_map]
    exact Or.inl (Or.inl (Or.inl ⟨x, hx, rfl⟩))))

theorem fileFormat_ensures {x : FileFormatEntry} (hx : x ∈ s.fileFormats) (g : CatalogGraph) :
    Ensures s g (g.ensureNamed (relationProfile s) x.fileFormat .fileFormat q)
      (.fileFormat (relationProfile s) x.fileFormat) :=
  ensureNamed_ensures namedAs_fileFormat (mem_named_of_relation (by
    simp only [relationEntities, List.mem_append, List.mem_map]
    exact Or.inl (Or.inl (Or.inr ⟨x, hx, rfl⟩))))

theorem relationEnd_mem_named {r : CatalogRelation} (hr : r ∈ s.relations)
    (he : e ∈ [(relationEnds (relationProfile s) r).1, (relationEnds (relationProfile s) r).2]) :
    e ∈ named s :=
  mem_named_of_relation (by
    simp only [relationEntities, List.mem_append, List.mem_flatMap]
    exact Or.inl (Or.inr ⟨r, hr, he⟩))

theorem tag_mem_named {t : TagAssignment} (ht : t ∈ s.tags)
    (he : e ∈ [.tag (relationProfile s) t.tag, .object (relationProfile s) t.object,
      taggedEntity (relationProfile s) t]) : e ∈ named s :=
  mem_named_of_relation (by
    simp only [relationEntities, List.mem_append, List.mem_flatMap]
    exact Or.inr ⟨t, ht, he⟩)

theorem relation_grows {r : CatalogRelation} (hr : r ∈ s.relations) (g : CatalogGraph) :
    Grows s g (g.addRelation (relationProfile s) q r) :=
  addRelation_grows hr (relationEnd_mem_named hr (by simp)) (relationEnd_mem_named hr (by simp)) g

theorem tag_spec {t : TagAssignment} (ht : t ∈ s.tags) (g : CatalogGraph) :
    Grows s g (g.addTag (relationProfile s) q t) ∧
      ∀ e ∈ [.tag (relationProfile s) t.tag, .object (relationProfile s) t.object,
        taggedEntity (relationProfile s) t],
        (g.addTag (relationProfile s) q t).containsKey e.key :=
  addTag_spec ht (tag_mem_named ht (by simp)) (tag_mem_named ht (by simp))
    (tag_mem_named ht (by simp)) g

theorem addRelations_grows (g : CatalogGraph) :
    Grows s g (g.addRelations (relationProfile s) s) := by
  unfold CatalogGraph.addRelations
  refine .trans ?_ (.foldl (fun _ ht g ↦ (tag_spec ht g).1) _)
  refine .trans ?_ (.foldl (fun _ hr g ↦ relation_grows hr g) _)
  refine .trans ?_ (.foldl (fun _ hx g ↦ (fileFormat_ensures hx g).grows) _)
  exact .foldl (fun _ hx g ↦ (stage_ensures hx g).grows) g

theorem addRelations_containsKey (he : e ∈ relationEntities s (relationProfile s))
    (g : CatalogGraph) : (g.addRelations (relationProfile s) s).containsKey e.key := by
  have htags : ∀ g, Grows s g
      (s.tags.foldl (fun g t ↦ g.addTag (relationProfile s) s.provenance t) g) :=
    .foldl fun _ ht g ↦ (tag_spec ht g).1
  have hrelations : ∀ g, Grows s g
      (s.relations.foldl (fun g r ↦ g.addRelation (relationProfile s) s.provenance r) g) :=
    .foldl fun _ hr g ↦ relation_grows hr g
  have hformats : ∀ g, Grows s g (s.fileFormats.foldl (fun g x ↦
      (g.ensureNamed (relationProfile s) x.fileFormat .fileFormat s.provenance).2) g) :=
    .foldl fun _ hx g ↦ (fileFormat_ensures hx g).grows
  simp only [relationEntities, List.mem_append, List.mem_map, List.mem_flatMap] at he
  unfold CatalogGraph.addRelations
  rcases he with ((⟨x, hx, rfl⟩ | ⟨x, hx, rfl⟩) | ⟨r, hr, he⟩) | ⟨t, ht, he⟩
  · refine (htags _).keeps ((hrelations _).keeps ((hformats _).keeps ?_))
    exact containsKey_foldl (fun _ hx g ↦ (stage_ensures hx g).grows) hx
      (fun g ↦ (stage_ensures hx g).containsKey) g
  · refine (htags _).keeps ((hrelations _).keeps ?_)
    exact containsKey_foldl (fun _ hx g ↦ (fileFormat_ensures hx g).grows) hx
      (fun g ↦ (fileFormat_ensures hx g).containsKey) _
  · refine (htags _).keeps ?_
    refine containsKey_foldl (fun _ hr g ↦ relation_grows hr g) hr (fun g ↦ ?_) _
    exact addRelation_containsKey hr (relationEnd_mem_named hr (by simp))
      (relationEnd_mem_named hr (by simp)) g (by simpa using he)
  · exact containsKey_foldl (fun _ ht g ↦ (tag_spec ht g).1) ht (fun g ↦ (tag_spec ht g).2 e he) _

end Relations

/-! ## The graph of a snapshot -/

theorem fromSnapshot_grows (s : RelationSnapshot) : Grows s .new (.fromSnapshot s) := by
  unfold CatalogGraph.fromSnapshot
  refine .trans ?_ (addRelations_grows _)
  refine .trans ?_ (.foldl (fun _ hd _ ↦ addDatasetEdges_grows hd) _)
  refine .trans ?_ (.foldl (fun _ hc _ ↦ addColumn_grows hc) _)
  exact .foldl (fun _ hd _ ↦ addDataset_grows hd) _

/-- Every entity that an entry of the snapshot is about has a node. -/
theorem fromSnapshot_containsKey (he : e ∈ mentioned s) :
    (CatalogGraph.fromSnapshot s).containsKey e.key := by
  have hedges : ∀ g, Grows s g (s.datasets.foldl CatalogGraph.addDatasetEdges g) :=
    .foldl fun _ hd _ ↦ addDatasetEdges_grows hd
  have hcolumns : ∀ g, Grows s g
      (s.columns.foldl (fun g c ↦ g.addColumn (columnProfile s c) c s.provenance) g) :=
    .foldl fun _ hc _ ↦ addColumn_grows hc
  unfold CatalogGraph.fromSnapshot
  rcases List.mem_append.mp he with he | he
  · refine (addRelations_grows _).keeps ?_
    rcases List.mem_append.mp he with he | he
    · obtain ⟨d, hd, he⟩ := List.mem_flatMap.mp he
      rcases List.mem_append.mp he with he | he
      · refine (hedges _).keeps ((hcolumns _).keeps ?_)
        exact containsKey_foldl (fun _ hd _ ↦ addDataset_grows hd) hd
          (fun g ↦ addDataset_containsKey g he) _
      · obtain ⟨f, hf, rfl⟩ := List.mem_map.mp he
        exact containsKey_foldl (fun _ hd _ ↦ addDatasetEdges_grows hd) hd
          (addDatasetEdges_containsKey hd hf) _
    · obtain ⟨c, hc, rfl⟩ := List.mem_map.mp he
      refine (hedges _).keeps ?_
      exact containsKey_foldl (fun _ hc _ ↦ addColumn_grows hc) hc
        (fun g ↦ addColumn_containsKey g) _
  · exact addRelations_containsKey he _

theorem describes_of_get? {k : NodeKey} {n : CatalogNode}
    (h : (CatalogGraph.fromSnapshot s).nodes.get? k = some n) :
    ∃ e ∈ named s, e.key = k ∧ Describes n e := by
  rcases (fromSnapshot_grows s).nodes h with h | h
  · cases h
  · exact h

theorem relates_of_mem_edges {x : CatalogEdge} (h : x ∈ (CatalogGraph.fromSnapshot s).edges) :
    ∃ e e', Relates s e x.kind x.detail e' ∧ x.source = e.key ∧ x.target = e'.key := by
  rcases (fromSnapshot_grows s).edges h with h | h
  · cases h
  · exact h

/-- Both entities of a relation are named. -/
theorem Relates.mem_named {kind : CatalogEdgeKind} {detail : Option Text}
    (h : Relates s e kind detail e') : e ∈ named s ∧ e' ∈ named s := by
  cases h with
  | contains he hc => exact ⟨container_mem_named he hc, he⟩
  | datasetObject hd =>
      refine ⟨mem_named_of_dataset hd ?_, mem_named_of_dataset hd ?_⟩ <;>
        simp [datasetEntities, Entity.chain]
  | fieldColumn hd hf =>
      refine ⟨mem_named_of_dataset hd ?_, mem_named_of_dataset hd ?_⟩
      · simp [datasetEntities]
      · exact List.mem_append_right _ (List.mem_map.mpr ⟨_, hf, rfl⟩)
  | viewDependsOn hr | foreignKey hr | usesStage hr | usesFileFormat hr
  | stageUsesFileFormat hr =>
      exact ⟨relationEnd_mem_named hr (by simp [relationEnds]),
        relationEnd_mem_named hr (by simp [relationEnds])⟩
  | tagged ht => exact ⟨tag_mem_named ht (by simp), tag_mem_named ht (by simp)⟩

/-- Distinct entities are distinct nodes: no two entities that the snapshot names have
one key, every node is that of the entity of its key, and every edge joins entities as
the snapshot relates them. -/
structure DistinctNodes (s : RelationSnapshot) : Prop where
  keys : ∀ e ∈ named s, ∀ e' ∈ named s, e.key = e'.key → e = e'
  present : ∀ e ∈ mentioned s, (CatalogGraph.fromSnapshot s).containsKey e.key
  nodes : ∀ e ∈ named s, ∀ n, (CatalogGraph.fromSnapshot s).nodes.get? e.key = some n →
    Describes n e
  edges : ∀ x ∈ (CatalogGraph.fromSnapshot s).edges, ∀ e ∈ named s, ∀ e' ∈ named s,
    x.source = e.key → x.target = e'.key → Relates s e x.kind x.detail e'

/-- No identifiers that lead to an entity of the snapshot run on over those of another. -/
def NoRunOn (s : RelationSnapshot) : Prop := ∀ e ∈ named s, ∀ e' ∈ named s, ¬ e.RunsOn e'

theorem eq_of_key_eq (h : NoRunOn s) (he : e ∈ named s) (he' : e' ∈ named s)
    (hk : e.key = e'.key) : e = e' := by
  rcases Entity.key_eq_iff.mp hk with heq | hrun | hrun
  · exact heq
  · exact absurd hrun (h e he e' he')
  · exact absurd hrun (h e' he' e he)

/-- Plain identifiers are enough. -/
theorem noRunOn_of_plain (h : ∀ e ∈ named s, e.Plain) : NoRunOn s :=
  fun e he _ _ ↦ (h e he).not_runsOn

def slashProvenance : Provenance where
  source := .informationSchema
  dataSource := .live
  snapshotId := "snapshot".toList
  discoveredAt := "2026-01-01T00:00:00Z".toList
  profileFingerprint := "p".toList
  objectFingerprint := "D".toList
  commandId := "catalog scan".toList
  traceId := "trace".toList
  redactionsApplied := []

def slashDataset (id object : String) (columns : List String) : DatasetManifest where
  id := id.toList
  profile := "p".toList
  database := "D".toList
  schema := "S".toList
  object := object.toList
  kind := .table
  rightsClass := .internal
  defaultLimit := 100
  maxRowsWithoutExport := 1000
  approxRowCount := none
  bytes := none
  description := none
  provenance := slashProvenance
  fields := columns.map fun column ↦ ⟨column.toList, .feature, .string, false, .inferred⟩

/-- A table `T` with a column `A`, and a table of the same schema whose quoted name is
`T/column:A`. -/
def slashSnapshot : RelationSnapshot where
  provenance := slashProvenance
  datasets := [slashDataset "t" "T" ["A"], slashDataset "u" "T/column:A" []]
  columns := []
  relationsDiscovered := false
  relations := []
  stages := []
  fileFormats := []
  tags := []

end FrankenSnowflake.Graph
