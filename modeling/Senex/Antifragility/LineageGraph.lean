import Mathlib.Algebra.Ring.Nat
import Senex.Foundation.BreadthFirst
import Senex.Foundation.Dict
import Senex.Foundation.Json
import Senex.Foundation.Loop
import Senex.Foundation.Python

/-! # The lineage graph

`LineageGraph`: nodes under their ids and typed edges, kept once with their source and once with
their target.  A graph that was built by its operations has no dangling edge (`built_wellFormed`).
-/

namespace Senex.Antifragility

open Text

inductive EdgeType where
  | derivedFrom
  | transformedBy
  | producedBy
  | consumedBy
  | validatedBy
  | persistedTo
  | readFrom
  | aggregates
  | triggers
  | dependsOn
  deriving DecidableEq

structure LineageNode where
  nodeId : Text
  kind : Text
  name : Text
  payload : Json
  ts : Text
  hash : Text

structure LineageEdge where
  srcId : Text
  dstId : Text
  edgeType : EdgeType
  metadata : List (Text × Json)
  ts : Text

structure LineageGraph where
  name : Text
  nodes : Dict Text LineageNode
  outEdges : Dict Text (List LineageEdge)
  inEdges : Dict Text (List LineageEdge)

namespace LineageGraph

/-- `LineageGraph(name)` -/
def new (name : Text) : LineageGraph := ⟨name, Dict.empty, Dict.empty, Dict.empty⟩

def addNode (g : LineageGraph) (node : LineageNode) : LineageGraph :=
  { g with nodes := g.nodes.set node.nodeId node }

/-- `edges.get(node_id, [])` -/
def edgesAt (edges : Dict Text (List LineageEdge)) (nodeId : Text) : List LineageEdge :=
  (edges.get? nodeId).getD []

/-- `edges[node_id].append(edge)` of a `defaultdict` -/
def append (edges : Dict Text (List LineageEdge)) (nodeId : Text) (edge : LineageEdge) : Dict Text (List LineageEdge) :=
  edges.set nodeId (edgesAt edges nodeId ++ [edge])

def addEdge (g : LineageGraph) (srcId dstId : Text) (edgeType : EdgeType) (metadata : Option (List (Text × Json)))
    (now : Text) : Py LineageGraph :=
  if (g.nodes.get? srcId).isNone then raise .keyError (txt "unknown src node: " ++ srcId)
  else if (g.nodes.get? dstId).isNone then raise .keyError (txt "unknown dst node: " ++ dstId)
  else
    let edge : LineageEdge := ⟨srcId, dstId, edgeType, metadata.getD [], now⟩
    .ok { g with outEdges := append g.outEdges srcId edge, inEdges := append g.inEdges dstId edge }

/-- `self._nodes[node_id]` -/
def nodeAt (g : LineageGraph) (nodeId : Text) : Py LineageNode :=
  match g.nodes.get? nodeId with
  | some node => .ok node
  | none => raise .keyError nodeId

/-- The errors that `verify_integrity` collects. -/
def danglingErrs (g : LineageGraph) : List Text :=
  g.outEdges.items.flatMap fun entry =>
    (if (g.nodes.get? entry.1).isNone then [txt "edge src missing: " ++ entry.1] else []) ++
    entry.2.flatMap fun e =>
      if (g.nodes.get? e.dstId).isNone then [txt "edge dst missing: " ++ e.dstId] else []

def verifyIntegrity (g : LineageGraph) : Bool × List Text := (g.danglingErrs.length == 0, g.danglingErrs)

def edgeCount (g : LineageGraph) : Nat := (g.outEdges.values.map List.length).sum

/-! ## Graphs that were built -/

/-- The graphs that `add_node` and `add_edge` make. -/
inductive Built : LineageGraph → Prop
  | new (name : Text) : Built (new name)
  | addNode {g : LineageGraph} (node : LineageNode) : Built g → Built (g.addNode node)
  | addEdge {g after : LineageGraph} {srcId dstId : Text} {edgeType : EdgeType}
      {metadata : Option (List (Text × Json))} {now : Text} :
      Built g → g.addEdge srcId dstId edgeType metadata now = .ok after → Built after

/-- Where an edge leads, and from where. -/
def down (g : LineageGraph) (nodeId : Text) : List Text := (edgesAt g.outEdges nodeId).map LineageEdge.dstId

def up (g : LineageGraph) (nodeId : Text) : List Text := (edgesAt g.inEdges nodeId).map LineageEdge.srcId

/-- A node of the graph. -/
def Has (g : LineageGraph) (nodeId : Text) : Prop := ∃ node, g.nodes.get? nodeId = some node

/-- Nodes stand under their ids, edges between nodes, and each edge both with its source and its target. -/
structure WellFormed (g : LineageGraph) : Prop where
  ids : ∀ nodeId node, g.nodes.get? nodeId = some node → node.nodeId = nodeId
  sources : ∀ nodeId, ∀ e ∈ edgesAt g.outEdges nodeId, e.srcId = nodeId
  keyed : ∀ nodeId edges, g.outEdges.get? nodeId = some edges → g.Has nodeId
  ends : ∀ u v, v ∈ g.down u → g.Has u ∧ g.Has v
  both : ∀ u v, v ∈ g.up u ↔ u ∈ g.down v

theorem edgesAt_append_self (edges : Dict Text (List LineageEdge)) (nodeId : Text) (edge : LineageEdge) :
    edgesAt (append edges nodeId edge) nodeId = edgesAt edges nodeId ++ [edge] := by
  simp [edgesAt, append]

theorem edgesAt_append_of_ne {edges : Dict Text (List LineageEdge)} {nodeId other : Text} (edge : LineageEdge)
    (different : other ≠ nodeId) : edgesAt (append edges nodeId edge) other = edgesAt edges other := by
  simp [edgesAt, append, Dict.get?_set_of_ne different]

theorem mem_edgesAt_append {edges : Dict Text (List LineageEdge)} {nodeId other : Text} {edge e : LineageEdge} :
    e ∈ edgesAt (append edges nodeId edge) other ↔ e ∈ edgesAt edges other ∨ other = nodeId ∧ e = edge := by
  by_cases same : other = nodeId
  · subst same
    simp [edgesAt_append_self]
  · simp [edgesAt_append_of_ne edge same, same]

theorem has_addNode {g : LineageGraph} {node : LineageNode} {nodeId : Text} :
    (g.addNode node).Has nodeId ↔ nodeId = node.nodeId ∨ g.Has nodeId := by
  by_cases same : nodeId = node.nodeId
  · subst same
    simp [Has, addNode]
  · simp [Has, addNode, Dict.get?_set_of_ne same, same]

/-- An edge is added between nodes of the graph, with its source and with its target. -/
theorem addEdge_eq_ok {g after : LineageGraph} {srcId dstId : Text} {edgeType : EdgeType}
    {metadata : Option (List (Text × Json))} {now : Text} :
    g.addEdge srcId dstId edgeType metadata now = .ok after ↔ g.Has srcId ∧ g.Has dstId ∧
      after = { g with
        outEdges := append g.outEdges srcId ⟨srcId, dstId, edgeType, metadata.getD [], now⟩
        inEdges := append g.inEdges dstId ⟨srcId, dstId, edgeType, metadata.getD [], now⟩ } := by
  unfold addEdge Has
  cases source : g.nodes.get? srcId with
  | none => simp [raise]
  | some node =>
      cases target : g.nodes.get? dstId with
      | none => simp [raise]
      | some other => simp [eq_comm]

theorem mem_down {g : LineageGraph} {u v : Text} : v ∈ g.down u ↔ ∃ e ∈ edgesAt g.outEdges u, e.dstId = v :=
  List.mem_map

theorem mem_up {g : LineageGraph} {u v : Text} : v ∈ g.up u ↔ ∃ e ∈ edgesAt g.inEdges u, e.srcId = v :=
  List.mem_map

theorem wellFormed_new (name : Text) : (new name).WellFormed := by
  refine ⟨?_, ?_, ?_, ?_, ?_⟩ <;> simp [new, down, up, edgesAt]

theorem WellFormed.addNode {g : LineageGraph} (wf : g.WellFormed) (node : LineageNode) :
    (g.addNode node).WellFormed := by
  refine ⟨?_, wf.sources, ?_, ?_, wf.both⟩
  · intro nodeId other here
    by_cases same : nodeId = node.nodeId
    · subst same
      obtain rfl : node = other := by simpa [LineageGraph.addNode] using here
      rfl
    · refine wf.ids nodeId other ?_
      simpa [LineageGraph.addNode, Dict.get?_set_of_ne same] using here
  · intro nodeId edges here
    exact has_addNode.mpr (.inr (wf.keyed nodeId edges here))
  · intro u v step
    obtain ⟨source, target⟩ := wf.ends u v step
    exact ⟨has_addNode.mpr (.inr source), has_addNode.mpr (.inr target)⟩

theorem WellFormed.addEdge {g after : LineageGraph} (wf : g.WellFormed) {srcId dstId : Text} {edgeType : EdgeType}
    {metadata : Option (List (Text × Json))} {now : Text}
    (added : g.addEdge srcId dstId edgeType metadata now = .ok after) : after.WellFormed := by
  obtain ⟨source, target, rfl⟩ := addEdge_eq_ok.mp added
  refine ⟨wf.ids, ?_, ?_, ?_, ?_⟩
  · intro nodeId e member
    rcases mem_edgesAt_append.mp member with old | ⟨rfl, rfl⟩
    · exact wf.sources nodeId e old
    · rfl
  · intro nodeId edges here
    by_cases same : nodeId = srcId
    · subst same
      exact source
    · refine wf.keyed nodeId edges ?_
      simpa [append, Dict.get?_set_of_ne same] using here
  · intro u v step
    obtain ⟨e, member, rfl⟩ := mem_down.mp step
    rcases mem_edgesAt_append.mp member with old | ⟨rfl, rfl⟩
    · exact wf.ends u _ (mem_down.mpr ⟨e, old, rfl⟩)
    · exact ⟨source, target⟩
  · intro u v
    have before := wf.both u v
    simp only [mem_up, mem_down] at before ⊢
    simp only [mem_edgesAt_append, or_and_right, exists_or, before]
    grind

theorem built_wellFormed {g : LineageGraph} (built : g.Built) : g.WellFormed := by
  induction built with
  | new name => exact wellFormed_new name
  | addNode node _ ih => exact ih.addNode node
  | addEdge _ added ih => exact ih.addEdge added

theorem verifyIntegrity_eq {g : LineageGraph} (wf : g.WellFormed) : g.verifyIntegrity = (true, []) := by
  have none : g.danglingErrs = [] := by
    unfold danglingErrs
    rw [List.flatMap_eq_nil_iff]
    intro entry member
    have here := Dict.get?_of_mem member
    obtain ⟨node, known⟩ := wf.keyed _ _ here
    rw [known, List.append_eq_nil_iff]
    refine ⟨rfl, List.flatMap_eq_nil_iff.mpr fun e edge => ?_⟩
    have leads : e.dstId ∈ g.down entry.1 := mem_down.mpr ⟨e, by simpa [edgesAt, here] using edge, rfl⟩
    obtain ⟨other, target⟩ := (wf.ends _ _ leads).2
    rw [target]
    rfl
  rw [verifyIntegrity, none]
  rfl

end LineageGraph

end Senex.Antifragility
