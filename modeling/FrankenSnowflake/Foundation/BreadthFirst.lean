import Mathlib.Data.Finset.Card
import Mathlib.Data.List.Basic
import Mathlib.Data.List.Nodup
import Mathlib.Data.Nat.Find
import Mathlib.Logic.Relation
import Mathlib.Order.Bounds.Basic

/-!
# Breadth-first search

A search from a root, by a queue of the nodes to expand and the set of those seen; a
visitor sees every arrow that is looked at.  Nodes are found in the order of their
distances, each at its own.
-/

namespace Foundation.BreadthFirst

/-! ## Distances -/

section Distance

variable {α : Type} (R : α → α → Prop)

/-- Related by a chain of a length. -/
def Steps : Nat → α → α → Prop
  | 0, a, b => a = b
  | n + 1, a, c => ∃ b, Steps n a b ∧ R b c

/-- The length of a shortest chain. -/
def Distance (a : α) (n : Nat) (b : α) : Prop := IsLeast { m | Steps R m a b } n

variable {R}

theorem reflTransGen_iff_steps {a b : α} :
    Relation.ReflTransGen R a b ↔ ∃ n, Steps R n a b := by
  constructor
  · intro h
    induction h with
    | refl => exact ⟨0, rfl⟩
    | tail _ hlast ih =>
        obtain ⟨n, hn⟩ := ih
        exact ⟨n + 1, _, hn, hlast⟩
  · rintro ⟨n, h⟩
    induction n generalizing b with
    | zero => exact h ▸ .refl
    | succ n ih =>
        obtain ⟨c, hc, hlast⟩ := h
        exact (ih hc).tail hlast

theorem reflTransGen_iff_distance {a b : α} :
    Relation.ReflTransGen R a b ↔ ∃ n, Distance R a n b := by
  rw [reflTransGen_iff_steps]
  constructor
  · intro h
    classical
    exact ⟨Nat.find h, Nat.find_spec h, fun m hm ↦ Nat.find_min' h hm⟩
  · exact fun ⟨n, h⟩ ↦ ⟨n, h.1⟩

theorem distance_zero_iff {a b : α} : Distance R a 0 b ↔ a = b :=
  ⟨fun h ↦ h.1, fun h ↦ ⟨h, fun _ _ ↦ Nat.zero_le _⟩⟩

theorem Distance.unique {a b : α} {m n : Nat} (h : Distance R a m b) (h' : Distance R a n b) :
    m = n := IsLeast.unique h h'

/-- The end of a shortest chain is not where it began. -/
theorem Distance.pos_of_ne {a b : α} {n : Nat} (h : Distance R a n b) (hne : b ≠ a) : 0 < n := by
  rcases Nat.eq_zero_or_pos n with rfl | hpos
  · exact absurd (distance_zero_iff.mp h).symm hne
  · exact hpos

theorem Distance.ne_of_pos {a b : α} {n : Nat} (h : Distance R a n b) (hpos : 0 < n) : b ≠ a := by
  rintro rfl
  exact absurd (h.unique (distance_zero_iff.mpr rfl)) hpos.ne'

end Distance

/-! ## The search -/

/-- An arrow that is looked at: from where, how deep that is, and whether its target had
not been seen. -/
structure Visit (α β : Type) where
  source : α
  depth : Nat
  arrow : β
  fresh : Bool

structure State (α σ : Type) where
  /-- The nodes to expand, with their depths. -/
  queue : List (α × Nat)
  seen : List α
  acc : σ

section Search

variable {α β σ : Type} [DecidableEq α] (arrows : α → List β) (target : β → α)
  (expands : Nat → Bool) (visit : σ → Visit α β → σ)

/-- Look at an arrow of a node. -/
def look (a : α) (d : Nat) (s : State α σ) (b : β) : State α σ :=
  if target b ∈ s.seen then { s with acc := visit s.acc ⟨a, d, b, false⟩ }
  else
    { queue := s.queue ++ [(target b, d + 1)]
      seen := target b :: s.seen
      acc := visit s.acc ⟨a, d, b, true⟩ }

/-- Expand the first node of the queue, until there is none. -/
def search : Nat → State α σ → State α σ
  | 0, s => s
  | fuel + 1, s =>
      match s.queue with
      | [] => s
      | (a, d) :: queue =>
          if expands d then
            search fuel ((arrows a).foldl (look target visit a d) { s with queue })
          else search fuel { s with queue }

/-- Search from a root. -/
def searchFrom (fuel : Nat) (root : α) (acc : σ) : σ :=
  (search arrows target expands visit fuel ⟨[(root, 0)], [root], acc⟩).acc

end Search

/-! ## What has been found -/

section Found

variable {α β σ : Type} (arrows : α → List β) (target : β → α) (expands : Nat → Bool)
  (visit : σ → Visit α β → σ)

/-- The nodes that visits found, with their depths. -/
def foundBy (visits : List (Visit α β)) : List (α × Nat) :=
  (visits.filter Visit.fresh).map fun v ↦ (target v.arrow, v.depth + 1)

/-- What holds of the nodes found and the arrows looked at, whatever is in the queue. -/
structure Found (root : α) (visits : List (Visit α β)) (expanded queue : List (α × Nat)) :
    Prop where
  found : expanded ++ queue = (root, 0) :: foundBy target visits
  nodup : ((expanded ++ queue).map Prod.fst).Nodup
  sorted : ((expanded ++ queue).map Prod.snd).Pairwise (· ≤ ·)
  near : ∀ e ∈ expanded ++ queue, ∀ q ∈ queue, e.2 ≤ q.2 + 1
  looked : ∀ v ∈ visits, (v.source, v.depth) ∈ expanded ∧ expands v.depth ∧ v.arrow ∈ arrows v.source
  closed : ∀ v ∈ visits, ∃ d ≤ v.depth + 1, (target v.arrow, d) ∈ expanded ++ queue

/-- Every arrow of an expanded node has been looked at. -/
def Complete (visits : List (Visit α β)) (expanded : List (α × Nat)) : Prop :=
  ∀ e ∈ expanded, expands e.2 → ∀ b ∈ arrows e.1,
    ∃ v ∈ visits, v.source = e.1 ∧ v.depth = e.2 ∧ v.arrow = b

variable {arrows target expands visit} {root : α} {visits : List (Visit α β)}
  {expanded queue : List (α × Nat)}

theorem foundBy_append (visits : List (Visit α β)) (v : Visit α β) :
    foundBy target (visits ++ [v]) =
      foundBy target visits ++ if v.fresh then [(target v.arrow, v.depth + 1)] else [] := by
  rw [foundBy, List.filter_append, List.map_append, foundBy]
  congr 1
  cases hfresh : v.fresh with
  | false => simp [hfresh]
  | true => simp [hfresh]

namespace Found

variable (h : Found arrows target expands root visits expanded queue)

include h

/-- Queued nodes are as deep as any expanded one. -/
theorem le_of_mem {e q : α × Nat} (he : e ∈ expanded) (hq : q ∈ queue) : e.2 ≤ q.2 := by
  have hsorted := h.sorted
  rw [List.map_append, List.pairwise_append] at hsorted
  exact hsorted.2.2 e.2 (List.mem_map_of_mem he) q.2 (List.mem_map_of_mem hq)

/-- An arrow to a node that has been found. -/
theorem look_seen {a : α} {d : Nat} {b : β} (ha : (a, d) ∈ expanded) (hd : expands d)
    (hb : b ∈ arrows a) (hbound : ∀ e ∈ expanded ++ queue, e.2 ≤ d + 1)
    (hseen : ∃ e ∈ expanded ++ queue, e.1 = target b) :
    Found arrows target expands root (visits ++ [⟨a, d, b, false⟩]) expanded queue where
  found := by
    rw [foundBy_append, h.found]
    exact congrArg _ (List.append_nil _).symm
  nodup := h.nodup
  sorted := h.sorted
  near := h.near
  looked := List.forall_mem_append.mpr
    ⟨h.looked, List.forall_mem_singleton.mpr ⟨ha, hd, hb⟩⟩
  closed := by
    refine List.forall_mem_append.mpr ⟨h.closed, List.forall_mem_singleton.mpr ?_⟩
    obtain ⟨⟨x, e⟩, he, rfl⟩ := hseen
    exact ⟨e, hbound _ he, he⟩

/-- An arrow to a node that is found by it. -/
theorem look_fresh {a : α} {d : Nat} {b : β} (ha : (a, d) ∈ expanded) (hd : expands d)
    (hb : b ∈ arrows a) (hbound : ∀ e ∈ expanded ++ queue, e.2 ≤ d + 1)
    (hfresh : ∀ e ∈ expanded ++ queue, e.1 ≠ target b) :
    Found arrows target expands root (visits ++ [⟨a, d, b, true⟩]) expanded
      (queue ++ [(target b, d + 1)]) where
  found := by
    rw [foundBy_append, ← List.append_assoc, h.found]
    rfl
  nodup := by
    rw [← List.append_assoc, List.map_append, List.nodup_append]
    refine ⟨h.nodup, List.nodup_singleton _, fun x hx y hy ↦ ?_⟩
    obtain ⟨e, he, rfl⟩ := List.mem_map.mp hx
    obtain rfl := List.mem_singleton.mp hy
    exact hfresh e he
  sorted := by
    rw [← List.append_assoc, List.map_append, List.pairwise_append]
    refine ⟨h.sorted, List.pairwise_singleton _ _, fun x hx y hy ↦ ?_⟩
    obtain ⟨e, he, rfl⟩ := List.mem_map.mp hx
    obtain rfl := List.mem_singleton.mp hy
    exact hbound e he
  near := by
    rw [← List.append_assoc]
    intro e he q hq
    have hdeep : e.2 ≤ d + 1 := by
      rcases List.mem_append.mp he with he | he
      · exact hbound e he
      · exact (congrArg Prod.snd (List.mem_singleton.mp he)).le
    rcases List.mem_append.mp hq with hq | hq
    · exact hdeep.trans (Nat.succ_le_succ (h.le_of_mem ha hq))
    · obtain rfl := List.mem_singleton.mp hq
      exact hdeep.trans (Nat.le_succ _)
  looked := List.forall_mem_append.mpr
    ⟨h.looked, List.forall_mem_singleton.mpr ⟨ha, hd, hb⟩⟩
  closed := by
    rw [← List.append_assoc]
    refine List.forall_mem_append.mpr ⟨fun v hv ↦ ?_, List.forall_mem_singleton.mpr ?_⟩
    · obtain ⟨e, hle, he⟩ := h.closed v hv
      exact ⟨e, hle, List.mem_append_left _ he⟩
    · exact ⟨d + 1, le_refl _, List.mem_append_right _ (List.mem_singleton_self _)⟩

/-- The first node of the queue is expanded. -/
theorem pop {q : α × Nat} {rest : List (α × Nat)} (hqueue : queue = q :: rest) :
    Found arrows target expands root visits (expanded ++ [q]) rest := by
  have hsplit : (expanded ++ [q]) ++ rest = expanded ++ queue := by
    rw [hqueue, List.append_assoc]
    rfl
  refine ⟨?_, ?_, ?_, fun e he r hr ↦ ?_, fun v hv ↦ ?_, fun v hv ↦ ?_⟩
  · rw [hsplit]
    exact h.found
  · rw [hsplit]
    exact h.nodup
  · rw [hsplit]
    exact h.sorted
  · rw [hsplit] at he
    exact h.near e he r (hqueue ▸ List.mem_cons_of_mem _ hr)
  · obtain ⟨hsource, hrest⟩ := h.looked v hv
    exact ⟨List.mem_append_left _ hsource, hrest⟩
  · rw [hsplit]
    exact h.closed v hv

end Found

/-! ## Distances of what has been found -/

variable (arrows target) in
/-- An arrow from one node to another. -/
def Related (a b : α) : Prop := ∃ arrow ∈ arrows a, target arrow = b

theorem Found.steps (h : Found arrows target expands root visits expanded queue) {x : α} {d : Nat}
    (hx : (x, d) ∈ expanded ++ queue) : Steps (Related arrows target) d root x := by
  induction d generalizing x with
  | zero =>
      rw [h.found, List.mem_cons] at hx
      rcases hx with hx | hx
      · exact (congrArg Prod.fst hx).symm
      · obtain ⟨v, -, hv⟩ := List.mem_map.mp hx
        exact absurd (congrArg Prod.snd hv) (Nat.succ_ne_zero _)
  | succ d ih =>
      rw [h.found, List.mem_cons] at hx
      rcases hx with hx | hx
      · exact absurd (congrArg Prod.snd hx) (Nat.succ_ne_zero _)
      · obtain ⟨v, hv, heq⟩ := List.mem_map.mp hx
        obtain ⟨htarget, hdepth⟩ := Prod.mk.inj heq
        obtain ⟨hsource, -, harrow⟩ := h.looked v (List.mem_filter.mp hv).1
        rw [Nat.succ.inj hdepth] at hsource
        exact ⟨v.source, ih (List.mem_append_left _ hsource), v.arrow, harrow, htarget⟩

/-- A depth to which only nodes that are expanded lead. -/
def Within (expands : Nat → Bool) (d : Nat) : Prop := ∀ m < d, expands m

theorem Found.within (h : Found arrows target expands root visits expanded queue)
    (hexpands : ∀ m n, m ≤ n → expands n → expands m) {x : α} {d : Nat}
    (hx : (x, d) ∈ expanded ++ queue) : Within expands d := by
  rw [h.found, List.mem_cons] at hx
  rcases hx with hx | hx
  · obtain ⟨-, rfl⟩ := Prod.mk.inj hx
    exact fun m hm ↦ absurd hm (Nat.not_lt_zero m)
  · obtain ⟨v, hv, heq⟩ := List.mem_map.mp hx
    obtain ⟨-, hdepth, -⟩ := h.looked v (List.mem_filter.mp hv).1
    obtain ⟨-, rfl⟩ := Prod.mk.inj heq
    exact fun m hm ↦ hexpands m v.depth (Nat.lt_succ_iff.mp hm) hdepth

/-- A node that a chain leads to has been found, at its length or earlier. -/
theorem Found.exists_of_steps (h : Found arrows target expands root visits expanded [])
    (hcomplete : Complete arrows expands visits expanded)
    (hexpands : ∀ m n, m ≤ n → expands n → expands m) {x : α} {n : Nat}
    (hsteps : Steps (Related arrows target) n root x) (hwithin : Within expands n) :
    ∃ d ≤ n, (x, d) ∈ expanded := by
  induction n generalizing x with
  | zero =>
      obtain rfl : root = x := hsteps
      have hfound := h.found
      rw [List.append_nil] at hfound
      exact ⟨0, le_refl _, hfound ▸ List.mem_cons_self⟩
  | succ n ih =>
      obtain ⟨a, ha, b, hb, rfl⟩ := hsteps
      obtain ⟨d, hle, hd⟩ := ih ha fun m hm ↦ hwithin m (hm.trans (Nat.lt_succ_self n))
      have hexpand := hexpands d n hle (hwithin n (Nat.lt_succ_self n))
      obtain ⟨v, hv, -, hdepth, rfl⟩ := hcomplete _ hd hexpand b hb
      obtain ⟨e, he, hmem⟩ := h.closed v hv
      rw [List.append_nil] at hmem
      rw [hdepth] at he
      exact ⟨e, he.trans (Nat.succ_le_succ hle), hmem⟩

/-- What has been found in the end: the nodes within the depth, at their distances. -/
theorem Found.mem_iff (h : Found arrows target expands root visits expanded [])
    (hcomplete : Complete arrows expands visits expanded)
    (hexpands : ∀ m n, m ≤ n → expands n → expands m) {x : α} {d : Nat} :
    (x, d) ∈ expanded ↔ Distance (Related arrows target) root d x ∧ Within expands d := by
  have hnodup := h.nodup
  rw [List.append_nil] at hnodup
  constructor
  · intro hx
    have hmem : (x, d) ∈ expanded ++ [] := by rwa [List.append_nil]
    refine ⟨⟨h.steps hmem, fun m hm ↦ ?_⟩, h.within hexpands hmem⟩
    by_contra hlt
    have hwithin : Within expands m := fun k hk ↦
      h.within hexpands hmem k (hk.trans (Nat.lt_of_not_le hlt))
    obtain ⟨e, he, hfound⟩ := h.exists_of_steps hcomplete hexpands hm hwithin
    have heq := List.inj_on_of_nodup_map hnodup hx hfound rfl
    rw [(Prod.mk.inj heq).2] at hlt
    exact hlt he
  · rintro ⟨hdistance, hwithin⟩
    obtain ⟨e, he, hfound⟩ := h.exists_of_steps hcomplete hexpands hdistance.1 hwithin
    have hmem : (x, e) ∈ expanded ++ [] := by rwa [List.append_nil]
    rwa [le_antisymm he (hdistance.2 (h.steps hmem))] at hfound

theorem Found.expanded_eq (h : Found arrows target expands root visits expanded []) :
    expanded = (root, 0) :: foundBy target visits := by
  rw [← h.found, List.append_nil]

/-- What visits found: the nodes but for the root. -/
theorem Found.mem_foundBy_iff (h : Found arrows target expands root visits expanded [])
    (hcomplete : Complete arrows expands visits expanded)
    (hexpands : ∀ m n, m ≤ n → expands n → expands m) {x : α} {d : Nat} :
    (x, d) ∈ foundBy target visits ↔
      0 < d ∧ Distance (Related arrows target) root d x ∧ Within expands d := by
  rw [← h.mem_iff hcomplete hexpands, h.expanded_eq, List.mem_cons]
  constructor
  · intro hx
    obtain ⟨v, -, heq⟩ := List.mem_map.mp hx
    obtain ⟨-, rfl⟩ := Prod.mk.inj heq
    exact ⟨Nat.succ_pos _, .inr hx⟩
  · rintro ⟨hpos, hx | hx⟩
    · exact absurd (congrArg Prod.snd hx) hpos.ne'
    · exact hx

theorem Found.nodup_foundBy (h : Found arrows target expands root visits expanded []) :
    ((foundBy target visits).map Prod.fst).Nodup := by
  have hnodup := h.nodup
  rw [List.append_nil, h.expanded_eq, List.map_cons, List.nodup_cons] at hnodup
  exact hnodup.2

theorem Found.sorted_foundBy (h : Found arrows target expands root visits expanded []) :
    ((foundBy target visits).map Prod.snd).Pairwise (· ≤ ·) := by
  have hsorted := h.sorted
  rw [List.append_nil, h.expanded_eq, List.map_cons, List.pairwise_cons] at hsorted
  exact hsorted.2

/-- The arrows that are looked at: those of the nodes that are expanded. -/
theorem Found.exists_visit_iff (h : Found arrows target expands root visits expanded [])
    (hcomplete : Complete arrows expands visits expanded)
    (hexpands : ∀ m n, m ≤ n → expands n → expands m) {a : α} {d : Nat} {b : β} :
    (∃ v ∈ visits, v.source = a ∧ v.depth = d ∧ v.arrow = b) ↔
      Distance (Related arrows target) root d a ∧ expands d ∧ b ∈ arrows a := by
  constructor
  · rintro ⟨v, hv, rfl, rfl, rfl⟩
    obtain ⟨hsource, hexpand, harrow⟩ := h.looked v hv
    exact ⟨((h.mem_iff hcomplete hexpands).mp hsource).1, hexpand, harrow⟩
  · rintro ⟨hdistance, hexpand, hb⟩
    have hmem := (h.mem_iff hcomplete hexpands).mpr
      ⟨hdistance, fun m hm ↦ hexpands m d hm.le hexpand⟩
    exact hcomplete _ hmem hexpand b hb

/-- A node is not looked at before its distance. -/
theorem Found.le_of_visit (h : Found arrows target expands root visits expanded []) {v : Visit α β}
    (hv : v ∈ visits) {d : Nat} (hx : (target v.arrow, d) ∈ expanded) : d ≤ v.depth + 1 := by
  obtain ⟨e, hle, he⟩ := h.closed v hv
  have hnodup := h.nodup
  rw [List.append_nil] at he hnodup
  have heq := List.inj_on_of_nodup_map hnodup hx he rfl
  rwa [(Prod.mk.inj heq).2]

end Found

/-! ## Runs -/

section Run

variable {α β σ : Type} [DecidableEq α] {arrows : α → List β} {target : β → α}
  {expands : Nat → Bool} {visit : σ → Visit α β → σ} {root : α} {acc : σ}
  {visits : List (Visit α β)} {expanded : List (α × Nat)} {s : State α σ}

variable (arrows target expands visit root acc) in
/-- The state of a search. -/
structure Searched (visits : List (Visit α β)) (expanded : List (α × Nat)) (s : State α σ) :
    Prop where
  found : Found arrows target expands root visits expanded s.queue
  seen : ∀ x, x ∈ s.seen ↔ ∃ e ∈ expanded ++ s.queue, e.1 = x
  acc : s.acc = visits.foldl visit acc

theorem Searched.look {a : α} {d : Nat} {b : β}
    (h : Searched arrows target expands visit root acc visits expanded s)
    (ha : (a, d) ∈ expanded) (hd : expands d) (hb : b ∈ arrows a)
    (hbound : ∀ e ∈ expanded ++ s.queue, e.2 ≤ d + 1) :
    ∃ fresh, Searched arrows target expands visit root acc (visits ++ [⟨a, d, b, fresh⟩]) expanded
        (look target visit a d s b) ∧
      ∀ e ∈ expanded ++ (BreadthFirst.look target visit a d s b).queue, e.2 ≤ d + 1 := by
  have hacc : ∀ fresh, visit s.acc ⟨a, d, b, fresh⟩ =
      (visits ++ [Visit.mk a d b fresh]).foldl visit acc := fun fresh ↦ by
    rw [List.foldl_concat, h.acc]
  unfold BreadthFirst.look
  by_cases hseen : target b ∈ s.seen
  · rw [if_pos hseen]
    exact ⟨false, ⟨h.found.look_seen ha hd hb hbound ((h.seen _).mp hseen), h.seen, hacc false⟩,
      hbound⟩
  · rw [if_neg hseen]
    have hfresh : ∀ e ∈ expanded ++ s.queue, e.1 ≠ target b :=
      fun e he heq ↦ hseen ((h.seen _).mpr ⟨e, he, heq⟩)
    refine ⟨true, ⟨h.found.look_fresh ha hd hb hbound hfresh, fun x ↦ ?_, hacc true⟩, ?_⟩
    · rw [List.mem_cons, h.seen, ← List.append_assoc]
      constructor
      · rintro (rfl | ⟨e, he, rfl⟩)
        · exact ⟨_, List.mem_append_right _ (List.mem_singleton_self _), rfl⟩
        · exact ⟨e, List.mem_append_left _ he, rfl⟩
      · rintro ⟨e, he, rfl⟩
        rcases List.mem_append.mp he with he | he
        · exact .inr ⟨e, he, rfl⟩
        · exact .inl (congrArg Prod.fst (List.mem_singleton.mp he))
    · rw [← List.append_assoc]
      exact List.forall_mem_append.mpr ⟨hbound, List.forall_mem_singleton.mpr (le_refl _)⟩

/-- All arrows of a node are looked at. -/
theorem Searched.foldl_look {a : α} {d : Nat} {bs : List β}
    (h : Searched arrows target expands visit root acc visits expanded s)
    (ha : (a, d) ∈ expanded) (hd : expands d) (hbs : ∀ b ∈ bs, b ∈ arrows a)
    (hbound : ∀ e ∈ expanded ++ s.queue, e.2 ≤ d + 1) :
    ∃ news, Searched arrows target expands visit root acc (visits ++ news) expanded
        (bs.foldl (BreadthFirst.look target visit a d) s) ∧
      ∀ b ∈ bs, ∃ v ∈ news, v.source = a ∧ v.depth = d ∧ v.arrow = b := by
  induction bs generalizing visits s with
  | nil => exact ⟨[], by rwa [List.append_nil], List.forall_mem_nil _⟩
  | cons b bs ih =>
      obtain ⟨hb, hrest⟩ := List.forall_mem_cons.mp hbs
      obtain ⟨fresh, hlook, hbound'⟩ := h.look ha hd hb hbound
      obtain ⟨news, hnews, hall⟩ := ih hlook hrest hbound'
      refine ⟨⟨a, d, b, fresh⟩ :: news, ?_, List.forall_mem_cons.mpr ⟨?_, fun c hc ↦ ?_⟩⟩
      · rwa [List.append_assoc] at hnews
      · exact ⟨_, List.mem_cons_self, rfl, rfl, rfl⟩
      · obtain ⟨v, hv, hrest⟩ := hall c hc
        exact ⟨v, List.mem_cons_of_mem _ hv, hrest⟩

/-! ## Fuel -/

/-- What is left to do: the nodes in the queue, and those that may still be found. -/
def left (U : Finset α) (s : State α σ) : Nat := s.queue.length + {x ∈ U | x ∉ s.seen}.card

theorem left_look {U : Finset α} (a : α) (d : Nat) {b : β} (hb : target b ∈ U) (s : State α σ) :
    left U (look target visit a d s b) ≤ left U s := by
  unfold look left
  by_cases hseen : target b ∈ s.seen
  · rw [if_pos hseen]
  · rw [if_neg hseen]
    have hlt : {x ∈ U | x ∉ target b :: s.seen}.card < {x ∈ U | x ∉ s.seen}.card := by
      refine Finset.card_lt_card ⟨fun x hx ↦ ?_, fun hsubset ↦ ?_⟩
      · rw [Finset.mem_filter, List.mem_cons, not_or] at hx
        exact Finset.mem_filter.mpr ⟨hx.1, hx.2.2⟩
      · have hmem := hsubset (Finset.mem_filter.mpr ⟨hb, hseen⟩)
        exact (Finset.mem_filter.mp hmem).2 List.mem_cons_self
    show (s.queue ++ [(target b, d + 1)]).length + {x ∈ U | x ∉ target b :: s.seen}.card ≤ _
    rw [List.length_append, List.length_singleton]
    omega

theorem left_foldl_look {U : Finset α} (a : α) (d : Nat) {bs : List β} (hbs : ∀ b ∈ bs, target b ∈ U)
    (s : State α σ) : left U (bs.foldl (look target visit a d) s) ≤ left U s := by
  induction bs generalizing s with
  | nil => exact le_refl _
  | cons b bs ih =>
      obtain ⟨hb, hrest⟩ := List.forall_mem_cons.mp hbs
      exact (ih hrest _).trans (left_look a d hb s)

/-- A search with enough fuel ends with all arrows looked at. -/
theorem Searched.search {U : Finset α} (hU : ∀ a, ∀ b ∈ arrows a, target b ∈ U) {fuel : Nat}
    (h : Searched arrows target expands visit root acc visits expanded s)
    (hcomplete : Complete arrows expands visits expanded) (hfuel : left U s ≤ fuel) :
    ∃ visits' expanded', Found arrows target expands root visits' expanded' [] ∧
      Complete arrows expands visits' expanded' ∧
      (search arrows target expands visit fuel s).acc = visits'.foldl visit acc := by
  induction fuel generalizing visits expanded s with
  | zero =>
      have hqueue : s.queue = [] :=
        List.length_eq_zero_iff.mp (Nat.le_zero.mp ((Nat.le_add_right _ _).trans hfuel))
      exact ⟨visits, expanded, hqueue ▸ h.found, hcomplete, h.acc⟩
  | succ fuel ih =>
      cases hqueue : s.queue with
      | nil =>
          rw [BreadthFirst.search, hqueue]
          exact ⟨visits, expanded, hqueue ▸ h.found, hcomplete, h.acc⟩
      | cons q rest =>
          obtain ⟨a, d⟩ := q
          have hsplit : (expanded ++ [(a, d)]) ++ rest = expanded ++ s.queue := by
            rw [hqueue, List.append_assoc]
            rfl
          have hpop : Searched arrows target expands visit root acc visits (expanded ++ [(a, d)])
              { s with queue := rest } :=
            ⟨h.found.pop hqueue, fun x ↦ by rw [hsplit]; exact h.seen x, h.acc⟩
          have hleft : left U { s with queue := rest } ≤ fuel := by
            have hlength : s.queue.length = rest.length + 1 := by rw [hqueue]; rfl
            unfold left at hfuel ⊢
            dsimp only
            omega
          have hcons : BreadthFirst.search arrows target expands visit (fuel + 1) s =
              if expands d then BreadthFirst.search arrows target expands visit fuel
                ((arrows a).foldl (BreadthFirst.look target visit a d) { s with queue := rest })
              else BreadthFirst.search arrows target expands visit fuel { s with queue := rest } := by
            rw [BreadthFirst.search, hqueue]
          rw [hcons]
          by_cases hd : expands d
          · rw [if_pos hd]
            have ha : (a, d) ∈ expanded ++ [(a, d)] :=
              List.mem_append_right _ (List.mem_singleton_self _)
            have hbound : ∀ e ∈ (expanded ++ [(a, d)]) ++ rest, e.2 ≤ d + 1 := by
              rw [hsplit]
              exact fun e he ↦ h.found.near e he (a, d) (hqueue ▸ List.mem_cons_self)
            obtain ⟨news, hnews, hall⟩ := hpop.foldl_look ha hd (fun _ hb ↦ hb) hbound
            refine ih hnews (List.forall_mem_append.mpr ⟨fun e he hexpand b hb ↦ ?_,
              List.forall_mem_singleton.mpr fun _ b hb ↦ ?_⟩)
              ((left_foldl_look a d (hU a) _).trans hleft)
            · obtain ⟨v, hv, hrest⟩ := hcomplete e he hexpand b hb
              exact ⟨v, List.mem_append_left _ hv, hrest⟩
            · obtain ⟨v, hv, hrest⟩ := hall b hb
              exact ⟨v, List.mem_append_right _ hv, hrest⟩
          · rw [if_neg hd]
            refine ih hpop (List.forall_mem_append.mpr ⟨hcomplete,
              List.forall_mem_singleton.mpr fun hexpand ↦ absurd hexpand hd⟩) hleft

variable (expands visit) in
/-- A search from a root visits every arrow of the nodes within its depth. -/
theorem exists_searchFrom {U : Finset α} (hU : ∀ a, ∀ b ∈ arrows a, target b ∈ U) {fuel : Nat}
    (hfuel : U.card < fuel) (root : α) (acc : σ) : ∃ visits expanded,
      Found arrows target expands root visits expanded [] ∧
      Complete arrows expands visits expanded ∧
      searchFrom arrows target expands visit fuel root acc = visits.foldl visit acc := by
  have hstart : Searched arrows target expands visit root acc [] []
      ⟨[(root, 0)], [root], acc⟩ := by
    refine ⟨⟨rfl, List.nodup_singleton _, List.pairwise_singleton _ _, fun e he q hq ↦ ?_,
      List.forall_mem_nil _, List.forall_mem_nil _⟩, fun x ↦ ?_, rfl⟩
    · obtain rfl := List.mem_singleton.mp he
      exact Nat.zero_le _
    · constructor
      · intro hx
        obtain rfl := List.mem_singleton.mp hx
        exact ⟨_, List.mem_singleton_self _, rfl⟩
      · rintro ⟨e, he, rfl⟩
        obtain rfl := List.mem_singleton.mp he
        exact List.mem_singleton_self _
  refine hstart.search hU (List.forall_mem_nil _) ?_
  have hcard : {x ∈ U | x ∉ [root]}.card ≤ U.card := Finset.card_filter_le _ _
  unfold left
  dsimp only [List.length_singleton]
  omega

end Run

end Foundation.BreadthFirst
