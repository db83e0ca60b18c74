import FrankenSnowflake.Foundation.BreadthFirst
import FrankenSnowflake.Graph.Indexes

/-!
# Walks of a graph

Ancestors and descendants, the lineage of a node along dependencies, and what relates to
a node within a number of hops: three breadth-first searches over the adjacency rows.
-/

namespace FrankenSnowflake.Graph

open Foundation BreadthFirst Catalog

/-! ## Edges -/

/-- The edge is a dependency; containment and tags are not lineage. -/
def CatalogEdgeKind.isDependency : CatalogEdgeKind → Bool
  | .contains | .tagged => false
  | _ => true

/-- The place of a kind in the order of kinds. -/
def CatalogEdgeKind.rank : CatalogEdgeKind → Nat
  | .contains => 0
  | .datasetObject => 1
  | .fieldColumn => 2
  | .foreignKey => 3
  | .viewDependsOn => 4
  | .lineageReads => 5
  | .usesStage => 6
  | .usesFileFormat => 7
  | .tagged => 8

inductive Direction where
  | incoming
  | outgoing
deriving DecidableEq, Repr

/-- The end at which an edge that is followed is found. -/
def Direction.near : Direction → CatalogEdge → NodeKey
  | .incoming => CatalogEdge.target
  | .outgoing => CatalogEdge.source

/-- The end to which an edge is followed. -/
def Direction.far : Direction → CatalogEdge → NodeKey
  | .incoming => CatalogEdge.source
  | .outgoing => CatalogEdge.target

/-- Which way a lineage goes: to what a node reads, or to what reads it. -/
inductive LineageDirection where
  | upstream
  | downstream
deriving DecidableEq, Repr

def LineageDirection.direction : LineageDirection → Direction
  | .upstream => .outgoing
  | .downstream => .incoming

structure LineageStep where
  node : NodeKey
  depth : Nat
  via : CatalogEdgeKind
  «from» : NodeKey
deriving DecidableEq, Repr

structure RelatedNode where
  node : NodeKey
  depth : Nat
  incoming : Bool
  outgoing : Bool
deriving DecidableEq, Repr

namespace CatalogGraph

variable (g : CatalogGraph)

/-- The edges at the positions of a node's row. -/
def edgesAt (direction : Direction) (node : NodeKey) : List CatalogEdge :=
  let indexes := match direction with
    | .incoming => g.incoming.get? node
    | .outgoing => g.outgoing.get? node
  (indexes.getD []).filterMap (g.edges[·]?)

def neighbors (direction : Direction) (node : NodeKey) : List NodeKey :=
  (g.edgesAt direction node).map direction.far

/-- A neighbour before another: by its key, and an outgoing one first. -/
def beforeNeighbor (x y : NodeKey × Bool) : Bool :=
  x.1 < y.1 || (x.1 = y.1 && (!x.2 || y.2))

/-- The neighbours both ways, and whether their edge is an incoming one. -/
def neighborsBoth (node : NodeKey) : List (NodeKey × Bool) :=
  ((g.neighbors .incoming node).map (·, true) ++
    (g.neighbors .outgoing node).map (·, false)).mergeSort beforeNeighbor

/-- An edge before another: by its kind, its source and its target. -/
def beforeEdge (x y : CatalogEdge) : Bool :=
  x.kind.rank < y.kind.rank || (x.kind.rank = y.kind.rank &&
    (x.source < y.source || (x.source = y.source && x.target ≤ y.target)))

def dependencies (direction : Direction) (node : NodeKey) : List CatalogEdge :=
  ((g.edgesAt direction node).filter (·.kind.isDependency)).mergeSort beforeEdge

/-! ## Searches -/

/-- More nodes than edges lead to. -/
def enough : Nat := 2 * g.edges.length + 1

/-- The nodes that a search finds; it does not use their depths. -/
def walk (node : NodeKey) (direction : Direction) : List NodeKey :=
  if g.containsKey node then
    (searchFrom (g.neighbors direction) id (fun _ ↦ true)
      (fun (result : SortedMap NodeKey Unit) v ↦ if v.fresh then result.insert v.arrow () else result)
      g.enough node .empty).keys
  else []

def ancestors (node : NodeKey) : List NodeKey := g.walk node .incoming

def descendants (node : NodeKey) : List NodeKey := g.walk node .outgoing

/-- Whether a node is reachable from another. -/
def reachable («from» «to» : NodeKey) : Bool := «from» = «to» || (g.descendants «from»).any (· = «to»)

/-- The dependency lineage of a node, each node once. -/
def lineage (node : NodeKey) (direction : LineageDirection) : List LineageStep :=
  if g.containsKey node then
    searchFrom (g.dependencies direction.direction) direction.direction.far (fun _ ↦ true)
      (fun steps v ↦
        if v.fresh then
          steps ++ [⟨direction.direction.far v.arrow, v.depth + 1, v.arrow.kind, v.source⟩]
        else steps)
      g.enough node []
  else []

/-- Note a neighbour of a node at a depth; the seed itself is skipped. -/
def relate (seed : NodeKey) (related : SortedMap NodeKey RelatedNode)
    (v : Visit NodeKey (NodeKey × Bool)) : SortedMap NodeKey RelatedNode :=
  let next := v.arrow.1
  let incoming := v.arrow.2
  if next = seed then related
  else
    let entry := (related.get? next).getD ⟨next, v.depth + 1, incoming, !incoming⟩
    related.insert next
      { entry with
        depth := min entry.depth (v.depth + 1)
        incoming := entry.incoming || incoming
        outgoing := entry.outgoing || !incoming }

/-- The neighbourhood of a node both ways, up to a depth. -/
def whatRelatesTo (node : NodeKey) (depth : Nat) : List RelatedNode :=
  if g.containsKey node then
    (searchFrom g.neighborsBoth Prod.fst (fun d ↦ d < depth) (relate node) g.enough node
      .empty).values
  else []

end CatalogGraph

/-! ## What the rows say -/

/-- An edge joins two nodes in a direction. -/
def Joins (g : CatalogGraph) (direction : Direction) (a b : NodeKey) : Prop :=
  ∃ e ∈ g.edges, direction.near e = a ∧ direction.far e = b

/-- A dependency joins two nodes in a direction. -/
def Depends (g : CatalogGraph) (direction : Direction) (a b : NodeKey) : Prop :=
  ∃ e ∈ g.edges, e.kind.isDependency ∧ direction.near e = a ∧ direction.far e = b

/-- An edge joins two nodes in one of the directions. -/
def Adjacent (g : CatalogGraph) (a b : NodeKey) : Prop :=
  Joins g .incoming a b ∨ Joins g .outgoing a b

section Rows

variable {g : CatalogGraph}

theorem edgesAt_eq (h : Indexed g) (direction : Direction) (node : NodeKey) :
    g.edgesAt direction node = g.edges.filter fun e ↦ direction.near e = node := by
  cases direction with
  | incoming =>
      show ((g.incoming.get? node).getD []).filterMap (g.edges[·]?) = _
      rw [h.incoming, getD_rowOf]
      exact filterMap_positions CatalogEdge.target node g.edges
  | outgoing =>
      show ((g.outgoing.get? node).getD []).filterMap (g.edges[·]?) = _
      rw [h.outgoing, getD_rowOf]
      exact filterMap_positions CatalogEdge.source node g.edges

theorem mem_edgesAt (h : Indexed g) {direction : Direction} {node : NodeKey} {e : CatalogEdge} :
    e ∈ g.edgesAt direction node ↔ e ∈ g.edges ∧ direction.near e = node := by
  rw [edgesAt_eq h, List.mem_filter, decide_eq_true_iff]

theorem mem_neighbors (h : Indexed g) {direction : Direction} {node next : NodeKey} :
    next ∈ g.neighbors direction node ↔ Joins g direction node next := by
  rw [CatalogGraph.neighbors, List.mem_map]
  constructor
  · rintro ⟨e, he, rfl⟩
    obtain ⟨hmem, hnear⟩ := (mem_edgesAt h).mp he
    exact ⟨e, hmem, hnear, rfl⟩
  · rintro ⟨e, hmem, hnear, rfl⟩
    exact ⟨e, (mem_edgesAt h).mpr ⟨hmem, hnear⟩, rfl⟩

theorem mem_neighborsBoth (h : Indexed g) {node next : NodeKey} {incoming : Bool} :
    (next, incoming) ∈ g.neighborsBoth node ↔
      Joins g (if incoming then .incoming else .outgoing) node next := by
  rw [CatalogGraph.neighborsBoth, List.mem_mergeSort, List.mem_append, List.mem_map, List.mem_map]
  cases incoming with
  | true => simp [mem_neighbors h]
  | false => simp [mem_neighbors h]

theorem mem_dependencies (h : Indexed g) {direction : Direction} {node : NodeKey} {e : CatalogEdge} :
    e ∈ g.dependencies direction node ↔
      e ∈ g.edges ∧ direction.near e = node ∧ e.kind.isDependency := by
  rw [CatalogGraph.dependencies, List.mem_mergeSort, List.mem_filter, mem_edgesAt h, and_assoc]

/-- The nodes at the ends of edges. -/
def ends (g : CatalogGraph) : Finset NodeKey :=
  (g.edges.map CatalogEdge.source ++ g.edges.map CatalogEdge.target).toFinset

theorem far_mem_ends {e : CatalogEdge} (h : e ∈ g.edges) (direction : Direction) :
    direction.far e ∈ ends g := by
  rw [ends, List.mem_toFinset, List.mem_append]
  cases direction with
  | incoming => exact .inl (List.mem_map_of_mem h)
  | outgoing => exact .inr (List.mem_map_of_mem h)

theorem card_ends_lt (g : CatalogGraph) : (ends g).card < g.enough := by
  have hcard := List.toFinset_card_le (g.edges.map CatalogEdge.source ++
    g.edges.map CatalogEdge.target)
  rw [List.length_append, List.length_map, List.length_map, ← Nat.two_mul] at hcard
  exact Nat.lt_succ_of_le hcard

theorem related_neighbors (h : Indexed g) (direction : Direction) :
    Related (g.neighbors direction) id = Joins g direction := by
  ext a b
  constructor
  · rintro ⟨next, hnext, rfl⟩
    exact (mem_neighbors h).mp hnext
  · exact fun hjoins ↦ ⟨b, (mem_neighbors h).mpr hjoins, rfl⟩

theorem related_dependencies (h : Indexed g) (direction : Direction) :
    Related (g.dependencies direction) direction.far = Depends g direction := by
  ext a b
  constructor
  · rintro ⟨e, he, rfl⟩
    obtain ⟨hmem, hnear, hkind⟩ := (mem_dependencies h).mp he
    exact ⟨e, hmem, hkind, hnear, rfl⟩
  · rintro ⟨e, hmem, hkind, hnear, rfl⟩
    exact ⟨e, (mem_dependencies h).mpr ⟨hmem, hnear, hkind⟩, rfl⟩

theorem related_neighborsBoth (h : Indexed g) :
    Related g.neighborsBoth Prod.fst = Adjacent g := by
  ext a b
  constructor
  · rintro ⟨⟨next, incoming⟩, hnext, rfl⟩
    have hjoins := (mem_neighborsBoth h).mp hnext
    cases incoming with
    | true => exact .inl hjoins
    | false => exact .inr hjoins
  · rintro (hjoins | hjoins)
    · exact ⟨(b, true), (mem_neighborsBoth h).mpr hjoins, rfl⟩
    · exact ⟨(b, false), (mem_neighborsBoth h).mpr hjoins, rfl⟩

end Rows

/-! ## Ancestors and descendants -/

section Exact

variable {g : CatalogGraph} {seed : NodeKey}

theorem mem_keys_insertFresh {α : Type} {visits : List (Visit α NodeKey)} {x : NodeKey} :
    x ∈ (visits.foldl (fun (result : SortedMap NodeKey Unit) v ↦
        if v.fresh then result.insert v.arrow () else result) .empty).keys ↔
      ∃ v ∈ visits, v.fresh ∧ v.arrow = x := by
  induction visits using List.reverseRecOn with
  | nil => exact iff_of_false List.not_mem_nil fun ⟨v, hv, _⟩ ↦ List.not_mem_nil hv
  | append_singleton visits v ih =>
      rw [List.foldl_concat]
      simp only [List.mem_append, List.mem_singleton, or_and_right, exists_or, exists_eq_left, ← ih]
      cases hfresh : v.fresh with
      | false => simp
      | true =>
          rw [if_pos rfl, SortedMap.mem_keys, SortedMap.get?_insert, SortedMap.mem_keys]
          by_cases hx : x = v.arrow
          · simp [hx]
          · simp [hx, Ne.symm hx]

theorem within_true (d : Nat) : Within (fun _ ↦ true) d := fun _ _ ↦ rfl

/-- A walk lists the nodes other than its own that edges lead to, each once. -/
theorem walk_exact (h : Indexed g) (hseed : g.containsKey seed) (direction : Direction) :
    (g.walk seed direction).Pairwise (· < ·) ∧ ∀ x, x ∈ g.walk seed direction ↔
      x ≠ seed ∧ Relation.ReflTransGen (Joins g direction) seed x := by
  have hfar : ∀ a, ∀ b ∈ g.neighbors direction a, id b ∈ ends g := by
    intro a b hb
    obtain ⟨e, he, rfl⟩ := List.mem_map.mp hb
    exact far_mem_ends ((mem_edgesAt h).mp he).1 direction
  obtain ⟨visits, expanded, hfound, hcomplete, hresult⟩ := exists_searchFrom (fun _ ↦ true)
    (fun (result : SortedMap NodeKey Unit) v ↦ if v.fresh then result.insert v.arrow () else result)
    hfar (card_ends_lt g) seed .empty
  rw [CatalogGraph.walk, if_pos hseed, hresult]
  refine ⟨SortedMap.sorted_keys _, fun x ↦ ?_⟩
  rw [mem_keys_insertFresh, reflTransGen_iff_distance, ← related_neighbors h]
  have hmem : (∃ v ∈ visits, v.fresh ∧ v.arrow = x) ↔ ∃ d, (x, d) ∈ foundBy id visits := by
    constructor
    · rintro ⟨v, hv, hfresh, rfl⟩
      exact ⟨v.depth + 1, List.mem_map.mpr ⟨v, List.mem_filter.mpr ⟨hv, hfresh⟩, rfl⟩⟩
    · rintro ⟨d, hd⟩
      obtain ⟨v, hv, heq⟩ := List.mem_map.mp hd
      obtain ⟨hv, hfresh⟩ := List.mem_filter.mp hv
      exact ⟨v, hv, hfresh, congrArg Prod.fst heq⟩
  rw [hmem]
  constructor
  · rintro ⟨d, hd⟩
    obtain ⟨hpos, hdistance, -⟩ := (hfound.mem_foundBy_iff hcomplete fun _ _ _ _ ↦ rfl).mp hd
    exact ⟨hdistance.ne_of_pos hpos, d, hdistance⟩
  · rintro ⟨hne, d, hdistance⟩
    exact ⟨d, (hfound.mem_foundBy_iff hcomplete fun _ _ _ _ ↦ rfl).mpr
      ⟨hdistance.pos_of_ne hne, hdistance, within_true d⟩⟩

/-- Ancestors, descendants and reachability are those of the edges, in every graph that a
caller can have. -/
theorem ancestors_descendants_exact (h : CatalogGraph.Built g) (hseed : g.containsKey seed) :
    (∀ x, x ∈ g.descendants seed ↔
      x ≠ seed ∧ Relation.ReflTransGen (fun a b ↦ ∃ e ∈ g.edges, e.source = a ∧ e.target = b) seed x) ∧
    (∀ x, x ∈ g.ancestors seed ↔
      x ≠ seed ∧ Relation.ReflTransGen (fun a b ↦ ∃ e ∈ g.edges, e.source = a ∧ e.target = b) x seed) ∧
    ∀ x, g.reachable seed x ↔
      Relation.ReflTransGen (fun a b ↦ ∃ e ∈ g.edges, e.source = a ∧ e.target = b) seed x := by
  have hdescendants := (walk_exact h.indexed hseed .outgoing).2
  have hancestors := (walk_exact h.indexed hseed .incoming).2
  refine ⟨hdescendants, fun x ↦ ?_, fun x ↦ ?_⟩
  · refine (hancestors x).trans (and_congr_right fun _ ↦ ?_)
    rw [← Relation.reflTransGen_swap]
    have hswap : Function.swap (Joins g .incoming) =
        fun a b ↦ ∃ e ∈ g.edges, e.source = a ∧ e.target = b := by
      ext a b
      exact exists_congr fun e ↦ and_congr_right fun _ ↦ and_comm
    rw [hswap]
  · rw [CatalogGraph.reachable, Bool.or_eq_true, decide_eq_true_iff, List.any_eq_true]
    constructor
    · rintro (rfl | ⟨y, hy, heq⟩)
      · exact .refl
      · obtain rfl := of_decide_eq_true heq
        exact ((hdescendants y).mp hy).2
    · intro hreach
      by_cases hx : x = seed
      · exact .inl hx.symm
      · exact .inr ⟨x, (hdescendants x).mpr ⟨hx, hreach⟩, decide_eq_true rfl⟩

/-- From `a` one gets to `c`. -/
theorem descendants_chainGraph : ['c'] ∈ chainGraph.descendants ['a'] := by
  refine ((ancestors_descendants_exact built_chainGraph (by decide)).1 ['c']).mpr ⟨by decide, ?_⟩
  refine .tail (b := ['b']) (.single ?_) ?_
  · exact ⟨edge ['a'] .viewDependsOn ['b'] none noProvenance, by decide, rfl, rfl⟩
  · exact ⟨edge ['b'] .viewDependsOn ['c'] none noProvenance, by decide, rfl, rfl⟩

/-! ## Lineage -/

theorem foldl_ifFresh {α β γ : Type} (f : Visit α β → γ) (visits : List (Visit α β)) (acc : List γ) :
    visits.foldl (fun acc v ↦ if v.fresh then acc ++ [f v] else acc) acc =
      acc ++ (visits.filter Visit.fresh).map f := by
  induction visits generalizing acc with
  | nil => exact (List.append_nil _).symm
  | cons v visits ih =>
      rw [List.foldl_cons, ih]
      cases hfresh : v.fresh with
      | false => simp [hfresh]
      | true => simp [hfresh]

/-- The lineage of a node, of its dependencies in a direction. -/
structure LineageOf (g : CatalogGraph) (seed : NodeKey) (direction : Direction)
    (steps : List LineageStep) : Prop where
  once : (steps.map LineageStep.node).Nodup
  ordered : (steps.map LineageStep.depth).Pairwise (· ≤ ·)
  exact : ∀ x d, (∃ s ∈ steps, s.node = x ∧ s.depth = d) ↔
    x ≠ seed ∧ Distance (Depends g direction) seed d x
  via : ∀ s ∈ steps, ∃ e ∈ g.edges, e.kind.isDependency ∧ e.kind = s.via ∧
    direction.near e = s.from ∧ direction.far e = s.node ∧
      ∃ d, s.depth = d + 1 ∧ Distance (Depends g direction) seed d s.from

/-- A lineage lists the nodes that dependencies lead to, each once at its least depth, in
the order of depths and by an edge of that depth. -/
theorem lineage_exact (h : CatalogGraph.Built g) (hseed : g.containsKey seed)
    (direction : LineageDirection) :
    LineageOf g seed direction.direction (g.lineage seed direction) := by
  have hindexed := h.indexed
  have hfar : ∀ a, ∀ e ∈ g.dependencies direction.direction a,
      direction.direction.far e ∈ ends g :=
    fun a e he ↦ far_mem_ends ((mem_dependencies hindexed).mp he).1 _
  obtain ⟨visits, expanded, hfound, hcomplete, hresult⟩ := exists_searchFrom (fun _ ↦ true)
    (fun steps v ↦ if v.fresh then
      steps ++ [LineageStep.mk (direction.direction.far v.arrow) (v.depth + 1) v.arrow.kind v.source]
      else steps) hfar (card_ends_lt g) seed []
  rw [foldl_ifFresh, List.nil_append] at hresult
  have hsteps : (g.lineage seed direction).map (fun s ↦ (s.node, s.depth)) =
      foundBy direction.direction.far visits := by
    rw [CatalogGraph.lineage, if_pos hseed, hresult, List.map_map]
    rfl
  have hmem : ∀ s ∈ g.lineage seed direction, ∃ v ∈ visits, s =
      ⟨direction.direction.far v.arrow, v.depth + 1, v.arrow.kind, v.source⟩ := by
    rw [CatalogGraph.lineage, if_pos hseed, hresult]
    intro s hs
    obtain ⟨v, hv, rfl⟩ := List.mem_map.mp hs
    exact ⟨v, (List.mem_filter.mp hv).1, rfl⟩
  generalize g.lineage seed direction = steps at hsteps hmem
  have hexact : ∀ x d, (x, d) ∈ foundBy direction.direction.far visits ↔
      x ≠ seed ∧ Distance (Depends g direction.direction) seed d x := by
    intro x d
    rw [hfound.mem_foundBy_iff hcomplete fun _ _ _ _ ↦ rfl, related_dependencies hindexed]
    constructor
    · exact fun ⟨hpos, hdistance, _⟩ ↦ ⟨hdistance.ne_of_pos hpos, hdistance⟩
    · exact fun ⟨hne, hdistance⟩ ↦ ⟨hdistance.pos_of_ne hne, hdistance, within_true d⟩
  refine ⟨?_, ?_, fun x d ↦ ?_, fun s hs ↦ ?_⟩
  · have hnodes : steps.map LineageStep.node = (foundBy direction.direction.far visits).map Prod.fst := by
      rw [← hsteps, List.map_map]
      rfl
    rw [hnodes]
    exact hfound.nodup_foundBy
  · have hdepths : steps.map LineageStep.depth =
        (foundBy direction.direction.far visits).map Prod.snd := by
      rw [← hsteps, List.map_map]
      rfl
    rw [hdepths]
    exact hfound.sorted_foundBy
  · rw [← hexact, ← hsteps, List.mem_map]
    exact exists_congr fun s ↦ and_congr_right fun _ ↦ Prod.mk.injEq .. ▸ Iff.rfl
  · obtain ⟨v, hv, rfl⟩ := hmem s hs
    obtain ⟨hdistance, -, harrow⟩ := (hfound.exists_visit_iff hcomplete fun _ _ _ _ ↦ rfl).mp
      ⟨v, hv, rfl, rfl, rfl⟩
    obtain ⟨hedge, hnear, hkind⟩ := (mem_dependencies hindexed).mp harrow
    rw [related_dependencies hindexed] at hdistance
    exact ⟨v.arrow, hedge, hkind, rfl, hnear, rfl, v.depth, rfl, hdistance⟩

theorem lineage_chainGraph :
    LineageOf chainGraph ['a'] .outgoing (chainGraph.lineage ['a'] .upstream) :=
  lineage_exact built_chainGraph (by decide) .upstream

/-! ## What relates to a node -/

/-- What is noted of a node: its least depth, and the ways in which it was found. -/
structure Noted (visits : List (Visit NodeKey (NodeKey × Bool))) (x : NodeKey) (r : RelatedNode) :
    Prop where
  node : r.node = x
  depth : IsLeast {d | ∃ v ∈ visits, v.arrow.1 = x ∧ v.depth + 1 = d} r.depth
  incoming : r.incoming ↔ ∃ v ∈ visits, v.arrow = (x, true)
  outgoing : r.outgoing ↔ ∃ v ∈ visits, v.arrow = (x, false)

theorem exists_mem_append_singleton {α : Type} {xs : List α} {y : α} {P : α → Prop} :
    (∃ x ∈ xs ++ [y], P x) ↔ (∃ x ∈ xs, P x) ∨ P y := by
  simp [or_and_right, exists_or]

theorem Noted.append {visits : List (Visit NodeKey (NodeKey × Bool))} {x : NodeKey}
    {r : RelatedNode} (h : Noted visits x r) {v : Visit NodeKey (NodeKey × Bool)}
    (hv : v.arrow.1 ≠ x) : Noted (visits ++ [v]) x r := by
  have hway : ∀ way, v.arrow ≠ (x, way) := fun way heq ↦ hv (congrArg Prod.fst heq)
  refine ⟨h.node, ?_, ?_, ?_⟩
  · have hset : {d | ∃ w ∈ visits ++ [v], w.arrow.1 = x ∧ w.depth + 1 = d} =
        {d | ∃ w ∈ visits, w.arrow.1 = x ∧ w.depth + 1 = d} := by
      ext d
      exact exists_mem_append_singleton.trans (or_iff_left fun hw ↦ hv hw.1)
    rw [hset]
    exact h.depth
  · rw [exists_mem_append_singleton, h.incoming]
    exact (or_iff_left (hway true)).symm
  · rw [exists_mem_append_singleton, h.outgoing]
    exact (or_iff_left (hway false)).symm

theorem noted_first {visits : List (Visit NodeKey (NodeKey × Bool))}
    {v : Visit NodeKey (NodeKey × Bool)} (h : ∀ w ∈ visits, w.arrow.1 ≠ v.arrow.1) :
    Noted (visits ++ [v]) v.arrow.1
      ⟨v.arrow.1, min (v.depth + 1) (v.depth + 1), v.arrow.2 || v.arrow.2,
        !v.arrow.2 || !v.arrow.2⟩ := by
  have hway : ∀ way, ¬ ∃ w ∈ visits, w.arrow = (v.arrow.1, way) :=
    fun way ⟨w, hw, heq⟩ ↦ h w hw (by rw [heq])
  refine ⟨rfl, ?_, ?_, ?_⟩
  · rw [min_self]
    refine ⟨exists_mem_append_singleton.mpr (.inr ⟨rfl, rfl⟩), fun d hd ↦ ?_⟩
    rcases exists_mem_append_singleton.mp hd with ⟨w, hw, heq, -⟩ | ⟨-, rfl⟩
    · exact absurd heq (h w hw)
    · exact le_refl _
  · show (v.arrow.2 || v.arrow.2) = true ↔ _
    rw [exists_mem_append_singleton, or_iff_right (hway true), Bool.or_self]
    exact ⟨fun hv ↦ Prod.ext rfl hv, fun hv ↦ congrArg Prod.snd hv⟩
  · show (!v.arrow.2 || !v.arrow.2) = true ↔ _
    rw [exists_mem_append_singleton, or_iff_right (hway false), Bool.or_self, Bool.not_eq_true']
    exact ⟨fun hv ↦ Prod.ext rfl hv, fun hv ↦ congrArg Prod.snd hv⟩

theorem Noted.again {visits : List (Visit NodeKey (NodeKey × Bool))} {r : RelatedNode}
    {v : Visit NodeKey (NodeKey × Bool)} (h : Noted visits v.arrow.1 r) :
    Noted (visits ++ [v]) v.arrow.1
      { r with
        depth := min r.depth (v.depth + 1)
        incoming := r.incoming || v.arrow.2
        outgoing := r.outgoing || !v.arrow.2 } := by
  refine ⟨h.node, ?_, ?_, ?_⟩
  · refine ⟨?_, fun d hd ↦ ?_⟩
    · rcases min_choice r.depth (v.depth + 1) with hmin | hmin
      · obtain ⟨w, hw, hrest⟩ := h.depth.1
        refine ⟨w, List.mem_append_left _ hw, hrest.1, hrest.2.trans hmin.symm⟩
      · exact ⟨v, List.mem_append_right _ (List.mem_singleton_self _), rfl, hmin.symm⟩
    · rcases exists_mem_append_singleton.mp hd with hd | ⟨-, rfl⟩
      · exact (min_le_left _ _).trans (h.depth.2 hd)
      · exact min_le_right _ _
  · rw [exists_mem_append_singleton, Bool.or_eq_true, h.incoming]
    exact or_congr_right ⟨fun hv ↦ Prod.ext rfl hv, fun hv ↦ congrArg Prod.snd hv⟩
  · rw [exists_mem_append_singleton, Bool.or_eq_true, h.outgoing, Bool.not_eq_true']
    exact or_congr_right ⟨fun hv ↦ Prod.ext rfl hv, fun hv ↦ congrArg Prod.snd hv⟩

/-- What is noted of every node but the seed. -/
theorem noted_foldl_relate (visits : List (Visit NodeKey (NodeKey × Bool))) (x : NodeKey) :
    ((visits.foldl (CatalogGraph.relate seed) .empty).get? x = none ↔
        x = seed ∨ ∀ v ∈ visits, v.arrow.1 ≠ x) ∧
      ∀ r, (visits.foldl (CatalogGraph.relate seed) .empty).get? x = some r →
        x ≠ seed ∧ Noted visits x r := by
  induction visits using List.reverseRecOn with
  | nil => exact ⟨iff_of_true rfl (.inr (List.forall_mem_nil _)), fun r hr ↦ by cases hr⟩
  | append_singleton visits v ih =>
      obtain ⟨hnone, hsome⟩ := ih
      rw [List.foldl_concat]
      generalize visits.foldl (CatalogGraph.relate seed) .empty = related at hnone hsome
      rw [CatalogGraph.relate]
      by_cases hseed : v.arrow.1 = seed
      · rw [if_pos hseed, hnone]
        refine ⟨?_, fun r hr ↦ ?_⟩
        · by_cases hx : x = seed
          · exact iff_of_true (.inl hx) (.inl hx)
          · rw [or_iff_right hx, or_iff_right hx, List.forall_mem_append,
              List.forall_mem_singleton]
            exact (and_iff_left fun heq ↦ hx (heq.symm.trans hseed)).symm
        · obtain ⟨hx, hnoted⟩ := hsome r hr
          exact ⟨hx, hnoted.append fun heq ↦ hx (heq.symm.trans hseed)⟩
      · rw [if_neg hseed, SortedMap.get?_insert]
        by_cases hx : x = v.arrow.1
        · subst hx
          rw [if_pos rfl]
          refine ⟨iff_of_false (Option.some_ne_none _) ?_, fun r hr ↦ ⟨hseed, ?_⟩⟩
          · rintro (heq | hall)
            · exact hseed heq
            · exact hall v (List.mem_append_right _ (List.mem_singleton_self _)) rfl
          · obtain rfl := Option.some.inj hr
            cases hentry : related.get? v.arrow.1 with
            | none => exact noted_first ((hnone.mp hentry).resolve_left hseed)
            | some entry => exact (hsome entry hentry).2.again
        · rw [if_neg hx, hnone]
          refine ⟨or_congr_right ?_, fun r hr ↦ ?_⟩
          · rw [List.forall_mem_append, List.forall_mem_singleton]
            exact (and_iff_left (Ne.symm hx)).symm
          · obtain ⟨hne, hnoted⟩ := hsome r hr
            exact ⟨hne, hnoted.append (Ne.symm hx)⟩

/-- What is listed of a related node. -/
structure RelatesTo (g : CatalogGraph) (seed : NodeKey) (depth : Nat) (r : RelatedNode) : Prop where
  ne : r.node ≠ seed
  distance : Distance (Adjacent g) seed r.depth r.node
  within : r.depth ≤ depth
  incoming : r.incoming ↔ ∃ a, (∃ m < depth, Distance (Adjacent g) seed m a) ∧
    ∃ e ∈ g.edges, e.source = r.node ∧ e.target = a
  outgoing : r.outgoing ↔ ∃ a, (∃ m < depth, Distance (Adjacent g) seed m a) ∧
    ∃ e ∈ g.edges, e.source = a ∧ e.target = r.node

theorem RelatesTo.unique {depth : Nat} {r r' : RelatedNode} (h : RelatesTo g seed depth r)
    (h' : RelatesTo g seed depth r') (hnode : r.node = r'.node) : r = r' := by
  have hdepth : r.depth = r'.depth := by
    have hdistance := h.distance
    rw [hnode] at hdistance
    exact hdistance.unique h'.distance
  have hincoming : r.incoming = r'.incoming := by
    rw [Bool.eq_iff_iff, h.incoming, h'.incoming, hnode]
  have houtgoing : r.outgoing = r'.outgoing := by
    rw [Bool.eq_iff_iff, h.outgoing, h'.outgoing, hnode]
  cases r
  cases r'
  simp only at hnode hdepth hincoming houtgoing
  rw [hnode, hdepth, hincoming, houtgoing]

/-- Whether a node at a depth is expanded. -/
def isShallow (depth d : Nat) : Bool := d < depth

theorem isShallow_of_le {depth m n : Nat} (hle : m ≤ n) (h : isShallow depth n) :
    isShallow depth m := decide_eq_true (hle.trans_lt (of_decide_eq_true h))

theorem within_isShallow {depth d : Nat} (hpos : 0 < d) : Within (isShallow depth) d ↔ d ≤ depth := by
  constructor
  · intro h
    have hlast := of_decide_eq_true (h (d - 1) (Nat.sub_lt hpos Nat.one_pos))
    omega
  · exact fun h m hm ↦ decide_eq_true (hm.trans_le h)

section Visits

variable {visits : List (Visit NodeKey (NodeKey × Bool))} {expanded : List (NodeKey × Nat)}
  {depth : Nat} (h : Indexed g)
  (hfound : Found g.neighborsBoth Prod.fst (isShallow depth) seed visits expanded [])
  (hcomplete : Complete g.neighborsBoth (isShallow depth) visits expanded)

include h hfound hcomplete

theorem mem_foundBy_iff_adjacent {x : NodeKey} {d : Nat} : (x, d) ∈ foundBy Prod.fst visits ↔
    x ≠ seed ∧ Distance (Adjacent g) seed d x ∧ d ≤ depth := by
  rw [hfound.mem_foundBy_iff hcomplete fun _ _ ↦ isShallow_of_le, related_neighborsBoth h]
  constructor
  · rintro ⟨hpos, hdistance, hwithin⟩
    exact ⟨hdistance.ne_of_pos hpos, hdistance, (within_isShallow hpos).mp hwithin⟩
  · rintro ⟨hne, hdistance, hle⟩
    have hpos := hdistance.pos_of_ne hne
    exact ⟨hpos, hdistance, (within_isShallow hpos).mpr hle⟩

theorem exists_visit_iff_joins {x : NodeKey} {incoming : Bool} :
    (∃ v ∈ visits, v.arrow = (x, incoming)) ↔ ∃ a, (∃ m < depth, Distance (Adjacent g) seed m a) ∧
      Joins g (if incoming then .incoming else .outgoing) a x := by
  have hvisit := fun a m ↦ hfound.exists_visit_iff hcomplete (a := a) (d := m)
    (b := (x, incoming)) fun _ _ ↦ isShallow_of_le
  rw [related_neighborsBoth h] at hvisit
  constructor
  · rintro ⟨v, hv, harrow⟩
    obtain ⟨hdistance, hshallow, hmem⟩ := (hvisit _ _).mp ⟨v, hv, rfl, rfl, harrow⟩
    exact ⟨v.source, ⟨v.depth, of_decide_eq_true hshallow, hdistance⟩,
      (mem_neighborsBoth h).mp hmem⟩
  · rintro ⟨a, ⟨m, hlt, hdistance⟩, hjoins⟩
    obtain ⟨v, hv, -, -, harrow⟩ := (hvisit a m).mpr
      ⟨hdistance, decide_eq_true hlt, (mem_neighborsBoth h).mpr hjoins⟩
    exact ⟨v, hv, harrow⟩

theorem Noted.relatesTo {x : NodeKey} {r : RelatedNode} (hx : x ≠ seed) (hnoted : Noted visits x r) :
    RelatesTo g seed depth r := by
  obtain ⟨v, hv, htarget, hdepth⟩ := hnoted.depth.1
  obtain ⟨e, hle, he⟩ := hfound.closed v hv
  rw [List.append_nil, hfound.expanded_eq, List.mem_cons, htarget] at he
  have hmem : (x, e) ∈ foundBy Prod.fst visits :=
    he.resolve_left fun heq ↦ hx (congrArg Prod.fst heq)
  obtain ⟨w, hw, heq⟩ := List.mem_map.mp hmem
  obtain ⟨hw', hwdepth⟩ := Prod.mk.inj heq
  have hleast := hnoted.depth.2 ⟨w, (List.mem_filter.mp hw).1, hw', hwdepth⟩
  rw [hdepth] at hle
  rw [le_antisymm hle hleast] at hmem
  obtain ⟨hne, hdistance, hwithin⟩ := (mem_foundBy_iff_adjacent h hfound hcomplete).mp hmem
  rw [← hnoted.node] at hne hdistance
  refine ⟨hne, hdistance, hwithin, ?_, ?_⟩
  · rw [hnoted.incoming, exists_visit_iff_joins h hfound hcomplete, hnoted.node]
    exact exists_congr fun a ↦ and_congr_right fun _ ↦ exists_congr fun e ↦
      and_congr_right fun _ ↦ and_comm
  · rw [hnoted.outgoing, exists_visit_iff_joins h hfound hcomplete, hnoted.node]
    rfl

end Visits

/-- What relates to a node within a number of hops: the nodes at a distance up to it, each
once with its distance and the ways in which it is reached. -/
theorem whatRelatesTo_exact (h : CatalogGraph.Built g) (hseed : g.containsKey seed) (depth : Nat) :
    ((g.whatRelatesTo seed depth).map RelatedNode.node).Pairwise (· < ·) ∧
      ∀ r, r ∈ g.whatRelatesTo seed depth ↔ RelatesTo g seed depth r := by
  have hindexed := h.indexed
  have hfar : ∀ a, ∀ b ∈ g.neighborsBoth a, b.1 ∈ ends g := by
    rintro a ⟨next, incoming⟩ hb
    obtain ⟨e, he, -, rfl⟩ := (mem_neighborsBoth hindexed).mp hb
    exact far_mem_ends he _
  obtain ⟨visits, expanded, hfound, hcomplete, hresult⟩ := exists_searchFrom
    (isShallow depth) (CatalogGraph.relate seed) hfar (card_ends_lt g) seed .empty
  have hlisted : g.whatRelatesTo seed depth =
      (visits.foldl (CatalogGraph.relate seed) .empty).values := by
    rw [CatalogGraph.whatRelatesTo, if_pos hseed, ← hresult]
    rfl
  have hnoted := @noted_foldl_relate seed visits
  rw [hlisted]
  refine ⟨?_, fun r ↦ ?_⟩
  · have hkeys : (visits.foldl (CatalogGraph.relate seed) .empty).values.map RelatedNode.node =
        (visits.foldl (CatalogGraph.relate seed) .empty).keys := by
      rw [SortedMap.values, List.map_map, SortedMap.keys]
      refine List.map_congr_left fun e he ↦ ?_
      exact ((hnoted e.1).2 e.2 (SortedMap.mem_entries.mp he)).2.node
    rw [hkeys]
    exact SortedMap.sorted_keys _
  · rw [SortedMap.mem_values]
    constructor
    · rintro ⟨x, hx⟩
      obtain ⟨hne, hr⟩ := (hnoted x).2 r hx
      exact hr.relatesTo hindexed hfound hcomplete hne
    · intro hr
      have hmem := (mem_foundBy_iff_adjacent hindexed hfound hcomplete).mpr
        ⟨hr.ne, hr.distance, hr.within⟩
      obtain ⟨v, hv, heq⟩ := List.mem_map.mp hmem
      cases hget : (visits.foldl (CatalogGraph.relate seed) .empty).get? r.node with
      | none =>
          have hall := ((hnoted r.node).1.mp hget).resolve_left hr.ne
          exact absurd (congrArg Prod.fst heq) (hall v (List.mem_filter.mp hv).1)
      | some r' =>
          obtain ⟨hne, hr'⟩ := (hnoted r.node).2 r' hget
          have hrelates := hr'.relatesTo hindexed hfound hcomplete hne
          rw [hr.unique hrelates hr'.node.symm]
          exact ⟨r.node, hget⟩

end Exact

theorem whatRelatesTo_chainGraph :
    ((chainGraph.whatRelatesTo ['b'] 1).map RelatedNode.node).Pairwise (· < ·) ∧
      ∀ r, r ∈ chainGraph.whatRelatesTo ['b'] 1 ↔ RelatesTo chainGraph ['b'] 1 r :=
  whatRelatesTo_exact built_chainGraph (by decide) 1

end FrankenSnowflake.Graph
