import Senex.Antifragility.LineageQueries

/-! # Subgraphs of the lineage graph

`subgraph` is one more breadth-first search, which builds a graph of its own through `add_node`
and `add_edge`, each edge with a new time stamp.
-/

namespace Senex.Antifragility.LineageGraph

open Text BreadthFirst

/-- The subgraph so far, its nodes as they were seen, and what is queued. -/
structure Extracting where
  sg : LineageGraph
  seen : List Text
  queue : List (Text × Nat)

/-- The far end of an edge, where it is new. -/
def takeNode (g : LineageGraph) (depth : Nat) (s : Extracting) (farId : Text) : Py Extracting :=
  if s.seen.contains farId then .ok s
  else do
    let node ← g.nodeAt farId
    return ⟨s.sg.addNode node, s.seen ++ [farId], s.queue ++ [(farId, depth + 1)]⟩

/-- One turn of the inner loop; `clock` tells the time when a graph has that many edges. -/
def takeEdge (g : LineageGraph) (clock : Nat → Text) (depth : Nat) (s : Extracting) (edge : LineageEdge) : Py Extracting := do
  let s ← g.takeNode depth s edge.dstId
  let sg ← s.sg.addEdge edge.srcId edge.dstId edge.edgeType (some edge.metadata) (clock s.sg.edgeCount)
  return { s with sg }

def subgraphBody (g : LineageGraph) (clock : Nat → Text) (maxDepth : Int) (s : Extracting) :
    Extracting ⊕ Py LineageGraph :=
  match s.queue with
  | [] => .inr (.ok s.sg)
  | (nid, depth) :: queue =>
      if maxDepth ≤ depth then .inl { s with queue }
      else
        match (edgesAt g.outEdges nid).foldlM (g.takeEdge clock depth) { s with queue } with
        | .ok next => .inl next
        | .error raised => .inr (.error raised)

def subgraph (g : LineageGraph) (clock : Nat → Text) (rootId : Text) (maxDepth : Int) (fuel : Nat) :
    Option (Py LineageGraph) :=
  let sg := new (g.name ++ txt "_sub_" ++ rootId)
  match g.nodes.get? rootId with
  | none => some (.ok sg)
  | some root => Loop.iterate (g.subgraphBody clock maxDepth) fuel ⟨sg.addNode root, [rootId], [(rootId, 0)]⟩

variable {g : LineageGraph} {rootId : Text} {maxDepth : Int} {clock : Nat → Text}

/-- All but the time of the edge. -/
structure SameEdge (e other : LineageEdge) : Prop where
  srcId : e.srcId = other.srcId
  dstId : e.dstId = other.dstId
  edgeType : e.edgeType = other.edgeType
  metadata : e.metadata = other.metadata

/-- The extraction in terms of the vertices found. -/
structure Extracts (g : LineageGraph) (found : List (Text × Nat)) (done : Nat) (s : Extracting) : Prop where
  seen : s.seen = found.map Prod.fst
  queue : s.queue = found.drop done
  nodes : ∀ nodeId node, s.sg.nodes.get? nodeId = some node ↔
    nodeId ∈ found.map Prod.fst ∧ g.nodes.get? nodeId = some node
  built : s.sg.Built
  edges : ∀ nodeId, ∀ e ∈ edgesAt s.sg.outEdges nodeId, ∃ other ∈ edgesAt g.outEdges nodeId, SameEdge e other

theorem Extracts.has {found : List (Text × Nat)} {done : Nat} {s : Extracting} (extracts : Extracts g found done s)
    {nodeId : Text} (member : nodeId ∈ found.map Prod.fst) (has : g.Has nodeId) : s.sg.Has nodeId := by
  obtain ⟨node, here⟩ := has
  exact ⟨node, (extracts.nodes nodeId node).mpr ⟨member, here⟩⟩

theorem Extracts.takeNode {found : List (Text × Nat)} {done : Nat} {s : Extracting} (extracts : Extracts g found done s)
    (wf : g.WellFormed) (inside : done ≤ found.length) {farId : Text} (has : g.Has farId) (depth : Nat) :
    ∃ next, g.takeNode depth s farId = .ok next ∧ Extracts g (discover (depth + 1) found farId) done next := by
  unfold LineageGraph.takeNode
  rw [extracts.seen]
  by_cases old : farId ∈ found.map Prod.fst
  · rw [if_pos (List.contains_iff_mem.mpr old), discover, if_pos old]
    exact ⟨s, rfl, extracts⟩
  obtain ⟨node, here⟩ := has
  have named : node.nodeId = farId := wf.ids _ _ here
  refine ⟨_, by simp [old, nodeAt, here]; rfl, ?_⟩
  rw [discover, if_neg old]
  refine ⟨by simp, ?_, ?_, extracts.built.addNode node, extracts.edges⟩
  · rw [extracts.queue, List.drop_append_of_le_length inside]
  · intro nodeId other
    by_cases same : nodeId = farId
    · subst same
      simp [addNode, named, here]
    · simp [addNode, named, Dict.get?_set_of_ne same, extracts.nodes, same]

theorem mem_discover_self {V : Type} [DecidableEq V] (depth : Nat) (found : List (V × Nat)) (v : V) :
    v ∈ (discover depth found v).map Prod.fst := by
  unfold discover
  split
  · assumption
  · simp

/-- The far end of an edge is added with the edge. -/
theorem Extracts.takeEdge {found : List (Text × Nat)} {done : Nat} {s : Extracting} (extracts : Extracts g found done s)
    (wf : g.WellFormed) (inside : done ≤ found.length) {nid : Text} (expanded : nid ∈ found.map Prod.fst) {edge : LineageEdge}
    (member : edge ∈ edgesAt g.outEdges nid) (clock : Nat → Text) (depth : Nat) :
    ∃ next, g.takeEdge clock depth s edge = .ok next ∧
      Extracts g (discover (depth + 1) found edge.dstId) done next := by
  have source := wf.sources nid edge member
  have leads : edge.dstId ∈ g.down nid := mem_down.mpr ⟨edge, member, rfl⟩
  obtain ⟨has_source, has_target⟩ := wf.ends nid edge.dstId leads
  obtain ⟨middle, first, known⟩ := extracts.takeNode wf inside has_target depth
  have target_known : middle.sg.Has edge.dstId := known.has (mem_discover_self _ _ _) has_target
  have source_known : middle.sg.Has edge.srcId := by
    rw [source]
    exact known.has (((prefix_discover _ _ _).map Prod.fst).subset expanded) has_source
  obtain ⟨sg, added⟩ : ∃ sg, middle.sg.addEdge edge.srcId edge.dstId edge.edgeType (some edge.metadata)
      (clock middle.sg.edgeCount) = .ok sg := ⟨_, addEdge_eq_ok.mpr ⟨source_known, target_known, rfl⟩⟩
  refine ⟨{ middle with sg }, ?_, known.seen, known.queue, ?_, .addEdge known.built added, ?_⟩
  · exact Py.bind_eq_ok.mpr ⟨middle, first, Py.bind_eq_ok.mpr ⟨sg, added, rfl⟩⟩
  · obtain ⟨-, -, rfl⟩ := addEdge_eq_ok.mp added
    exact known.nodes
  · obtain ⟨-, -, rfl⟩ := addEdge_eq_ok.mp added
    intro nodeId e taken
    rcases mem_edgesAt_append.mp taken with before | ⟨rfl, rfl⟩
    · exact known.edges nodeId e before
    · exact ⟨edge, source ▸ member, rfl, rfl, rfl, rfl⟩

theorem Extracts.foldlM {found : List (Text × Nat)} {done : Nat} {s : Extracting} (extracts : Extracts g found done s)
    (wf : g.WellFormed) (inside : done ≤ found.length) {nid : Text} (expanded : nid ∈ found.map Prod.fst) (clock : Nat → Text) (depth : Nat)
    {edges : List LineageEdge} (members : ∀ e ∈ edges, e ∈ edgesAt g.outEdges nid) :
    ∃ next, edges.foldlM (g.takeEdge clock depth) s = .ok next ∧
      Extracts g ((edges.map LineageEdge.dstId).foldl (discover (depth + 1)) found) done next := by
  induction edges generalizing s found with
  | nil => exact ⟨s, rfl, extracts⟩
  | cons e edges ih =>
      obtain ⟨middle, first, kept⟩ := extracts.takeEdge wf inside expanded (members e (.head _)) clock depth
      have longer := prefix_discover (depth + 1) found e.dstId
      obtain ⟨next, rest, extracted⟩ := ih kept (inside.trans longer.length_le) ((longer.map Prod.fst).subset expanded)
        fun e member => members e (.tail _ member)
      exact ⟨next, by rw [List.foldlM_cons, first]; exact rest, extracted⟩

/-! ## The whole extraction -/

/-- The extraction, with the number of nodes that are not done yet. -/
structure Extraction (g : LineageGraph) (rootId : Text) (maxDepth : Int) (s : Extracting) (left : Nat)
    (found : List (Text × Nat)) (done : Nat) : Prop where
  search : Search g.down rootId (Deepens maxDepth) found done
  extracts : Extracts g found done s
  inside : done ≤ found.length
  left_eq : left + done = g.nodes.items.length

theorem Extraction.next (wf : g.WellFormed) (has : g.Has rootId) {s : Extracting} {left : Nat} {found : List (Text × Nat)}
    {done : Nat} (extraction : Extraction g rootId maxDepth s left found done) (clock : Nat → Text) {head : Text × Nat}
    {queue : List (Text × Nat)} (queued : s.queue = head :: queue) :
    ∃ next more, g.subgraphBody clock maxDepth s = .inl next ∧
      Extraction g rootId maxDepth next (left - 1) more (done + 1) ∧ 0 < left := by
  obtain ⟨nid, depth⟩ := head
  have split := extraction.extracts.queue
  rw [queued] at split
  have here : found[done]? = some (nid, depth) := by
    rw [← List.head?_drop, ← split]
    rfl
  have rest : queue = found.drop (done + 1) := by
    rw [← List.tail_drop, ← split]
    rfl
  obtain ⟨bounded, -⟩ := List.getElem?_eq_some_iff.mp here
  have limit := length_found_le (fun u _ v step => (wf.ends u v step).2) has extraction.search
  have left_eq := extraction.left_eq
  have kept := extraction.extracts
  have popped : Extracts g found (done + 1) { s with queue } := ⟨kept.seen, rest, kept.nodes, kept.built, kept.edges⟩
  by_cases deep : Deepens maxDepth depth
  · have expanded : nid ∈ found.map Prod.fst := List.mem_map_of_mem (List.mem_of_getElem? here)
    obtain ⟨next, taken, extracts⟩ := popped.foldlM wf bounded expanded clock depth fun e member => member
    have shallow : ¬maxDepth ≤ depth := not_le.mpr deep
    refine ⟨next, _, by simp [subgraphBody, queued, shallow, taken], ⟨extraction.search.expand here deep, extracts, ?_, ?_⟩, ?_⟩
    · exact Nat.le_trans bounded (prefix_foldl_discover _ _ _).length_le
    · omega
    · omega
  · have too_deep : maxDepth ≤ depth := not_lt.mp deep
    refine ⟨_, found, by simp [subgraphBody, queued, too_deep], ⟨extraction.search.skip here deep, popped, bounded, ?_⟩, ?_⟩
    · omega
    · omega

/-- The nodes within the bound, and edges of the graph between them. -/
structure SubgraphOf (g : LineageGraph) (rootId : Text) (maxDepth : Int) (sg : LineageGraph) : Prop where
  nodes : ∀ nodeId node, sg.nodes.get? nodeId = some node ↔ g.nodes.get? nodeId = some node ∧
    (nodeId = rootId ∨ ∃ n : Nat, (n : Int) ≤ maxDepth ∧ Walk g.down rootId n nodeId)
  integrity : sg.verifyIntegrity = (true, [])
  edges : ∀ nodeId, ∀ e ∈ edgesAt sg.outEdges nodeId, ∃ other ∈ edgesAt g.outEdges nodeId, SameEdge e other

theorem subgraphOf {found : List (Text × Nat)} {s : Extracting} (extracts : Extracts g found found.length s)
    (search : Search g.down rootId (Deepens maxDepth) found found.length) : SubgraphOf g rootId maxDepth s.sg := by
  refine ⟨fun nodeId node => ?_, verifyIntegrity_eq (built_wellFormed extracts.built), extracts.edges⟩
  have within : nodeId ∈ found.map Prod.fst ↔
      nodeId = rootId ∨ ∃ n : Nat, (n : Int) ≤ maxDepth ∧ Walk g.down rootId n nodeId := by
    constructor
    · intro member
      obtain ⟨⟨v, k⟩, inside, rfl⟩ := List.mem_map.mp member
      have walk := search.walks _ inside
      cases k with
      | zero =>
          cases walk
          exact .inl rfl
      | succ k =>
          have deep : (k : Int) < maxDepth := search.bounded _ inside k rfl
          exact .inr ⟨k + 1, by push_cast; omega, walk⟩
    · rintro (rfl | ⟨n, bounded, walk⟩)
      · exact List.mem_map_of_mem (List.mem_of_getElem? search.first)
      · obtain ⟨j, -, member⟩ := search.found_of_walk (downward_deepens maxDepth) (m := n)
          (fun i waiting e here => by simp [List.getElem?_eq_none waiting] at here) walk le_rfl
          fun k same => by unfold Deepens; omega
        exact List.mem_map_of_mem member
  rw [extracts.nodes, within, and_comm]

theorem exists_subgraph (wf : g.WellFormed) (has : g.Has rootId) (maxDepth : Int) (clock : Nat → Text) :
    ∃ fuel sg, g.subgraph clock rootId maxDepth fuel = some (.ok sg) ∧ SubgraphOf g rootId maxDepth sg := by
  obtain ⟨root, here⟩ := has
  have lower (s : Extracting) (left : Nat) (next : Extracting)
      (extraction : ∃ found done, Extraction g rootId maxDepth s left found done)
      (onward : g.subgraphBody clock maxDepth s = .inl next) :
      ∃ m < left, ∃ found done, Extraction g rootId maxDepth next m found done := by
    obtain ⟨found, done, extraction⟩ := extraction
    cases queued : s.queue with
    | nil => simp [subgraphBody, queued] at onward
    | cons head queue =>
        obtain ⟨after, more, stepped, kept, positive⟩ := extraction.next wf ⟨root, here⟩ clock queued
        obtain rfl : next = after := Sum.inl.inj (onward.symm.trans stepped)
        exact ⟨left - 1, by omega, more, _, kept⟩
  have named : root.nodeId = rootId := wf.ids _ _ here
  have start : Extraction g rootId maxDepth
      ⟨(new (g.name ++ txt "_sub_" ++ rootId)).addNode root, [rootId], [(rootId, 0)]⟩ g.nodes.items.length
      [(rootId, 0)] 0 := by
    refine ⟨search_start g.down rootId _, ⟨rfl, rfl, ?_, .addNode root (.new _), by simp [edgesAt, new, addNode]⟩, by simp, rfl⟩
    intro nodeId node
    by_cases same : nodeId = rootId
    · subst same
      simp [addNode, named, here]
    · simp [addNode, new, named, Dict.get?_set_of_ne same, same]
  obtain ⟨result, last, left, ⟨fuel, returned⟩, ⟨found, done, extraction⟩, ended⟩ :=
    Loop.exists_returns lower ⟨_, _, start⟩
  cases queued : last.queue with
  | cons head queue =>
      obtain ⟨after, more, stepped, -⟩ := extraction.next wf ⟨root, here⟩ clock queued
      rw [stepped] at ended
      cases ended
  | nil =>
      have all : found.length ≤ done := by
        rw [← List.drop_eq_nil_iff, ← extraction.extracts.queue, queued]
      obtain rfl : done = found.length := le_antisymm extraction.inside all
      obtain rfl : result = .ok last.sg := by simpa [subgraphBody, queued, eq_comm] using ended
      exact ⟨fuel, last.sg, by simp only [subgraph, here, returned], subgraphOf extraction.extracts extraction.search⟩

/-! ## All four queries -/

/-- What the queries of a node answer, walking down and, against the edges, up. -/
structure Queries (g : LineageGraph) (nodeId : Text) (maxDepth : Int) : Prop where
  reversed : ∀ u v, v ∈ g.up u ↔ u ∈ g.down v
  ancestors : ∃ fuel out, g.ancestors nodeId maxDepth fuel = some (.ok out) ∧ FoundWithin g g.up nodeId maxDepth out
  descendants : ∃ fuel out, g.descendants nodeId maxDepth fuel = some (.ok out) ∧ FoundWithin g g.down nodeId maxDepth out
  path : ∀ toId, g.Has toId → ∃ fuel r, g.path nodeId toId fuel = some r ∧
    ((∃ path, g.Leads nodeId toId path) → ∃ path, r = some path ∧ g.Shortest nodeId toId path) ∧
    ((¬∃ path, g.Leads nodeId toId path) → r = none)
  subgraph : ∀ clock, ∃ fuel sg, g.subgraph clock nodeId maxDepth fuel = some (.ok sg) ∧ SubgraphOf g nodeId maxDepth sg

/-- The queries are right on every graph that was built. -/
theorem queries_of_built {g : LineageGraph} (built : g.Built) {nodeId : Text} (has : g.Has nodeId) (maxDepth : Int) :
    Queries g nodeId maxDepth := by
  have wf := built_wellFormed built
  have present : g.nodes.get? nodeId ≠ none := by
    obtain ⟨node, here⟩ := has
    simp [here]
  have down_has : ∀ u, g.Has u → ∀ v ∈ g.down u, g.Has v := fun u _ v step => (wf.ends u v step).2
  have up_has : ∀ u, g.Has u → ∀ v ∈ g.up u, g.Has v := fun u _ v step => (wf.ends v u ((wf.both u v).mp step)).1
  refine ⟨wf.both, ?_, ?_, ?_, exists_subgraph wf has maxDepth⟩
  · obtain ⟨fuel, out, found, walked, reports, search⟩ := exists_walk wf up_has has present
    exact ⟨fuel, out, walked, foundWithin reports search⟩
  · obtain ⟨fuel, out, found, walked, reports, search⟩ := exists_walk wf down_has has present
    exact ⟨fuel, out, walked, foundWithin reports search⟩
  · intro toId target
    obtain ⟨fuel, r, sought, answers⟩ := exists_path wf has target
    refine ⟨fuel, r, sought, fun leads => ?_, fun none => ?_⟩
    · cases r with
      | none => exact absurd leads (answers.none rfl)
      | some path => exact ⟨path, rfl, answers.shortest path rfl⟩
    · cases r with
      | none => rfl
      | some path => exact absurd ⟨path, (answers.shortest path rfl).leads⟩ none

/-! A node with two edges to itself. -/

def loopNode : LineageNode := ⟨txt "n", txt "prediction", txt "loop", .null, txt "2026-01-01T00:00:00Z", txt ""⟩

theorem exists_looped {g : LineageGraph} (built : g.Built) (has : g.Has (txt "n")) :
    ∃ looped, g.addEdge (txt "n") (txt "n") .derivedFrom none (txt "2026-01-01T00:00:00Z") = .ok looped ∧
      Built looped ∧ looped.Has (txt "n") := by
  obtain ⟨looped, added⟩ : ∃ looped, g.addEdge (txt "n") (txt "n") .derivedFrom none (txt "2026-01-01T00:00:00Z") =
      .ok looped := ⟨_, addEdge_eq_ok.mpr ⟨has, has, rfl⟩⟩
  refine ⟨looped, added, .addEdge built added, ?_⟩
  obtain ⟨-, -, rfl⟩ := addEdge_eq_ok.mp added
  exact has

theorem queries_of_built_loops : ∃ g, Built g ∧ g.Has (txt "n") ∧ Queries g (txt "n") 10 := by
  have alone : Built ((new (txt "lineage")).addNode loopNode) := .addNode loopNode (.new _)
  obtain ⟨once, -, built_once, has_once⟩ := exists_looped alone ⟨loopNode, rfl⟩
  obtain ⟨twice, -, built, has⟩ := exists_looped built_once has_once
  exact ⟨twice, built, has, queries_of_built built has 10⟩

end Senex.Antifragility.LineageGraph
