import Senex.Antifragility.LineageGraph

/-! # Queries of the lineage graph

`ancestors`, `descendants` and `path` search breadth first.  A search of `walk` reports the nodes it
finds with their depths, and never goes on from one that is too deep; the search for a path stops
at its target.
-/

namespace Senex.Antifragility.LineageGraph

open Text BreadthFirst

/-! ## The queries -/

/-- What a search has visited, what is queued, and what it reports. -/
structure Walking where
  visited : Dict Text Nat
  queue : List (Text × Nat)
  out : List (LineageNode × Nat)

/-- One turn of the inner loop, at the far end of an edge. -/
def look (g : LineageGraph) (depth : Nat) (s : Walking) (farId : Text) : Py Walking :=
  if (s.visited.get? farId).isSome then .ok s
  else do
    let node ← g.nodeAt farId
    return ⟨s.visited.set farId (depth + 1), s.queue ++ [(farId, depth + 1)], s.out ++ [(node, depth + 1)]⟩

/-- The body of the outer loop; `ends` are the far ends of a node's edges. -/
def walkBody (g : LineageGraph) (ends : Text → List Text) (maxDepth : Int) (s : Walking) :
    Walking ⊕ Py (List (LineageNode × Nat)) :=
  match s.queue with
  | [] => .inr (.ok s.out)
  | (nid, depth) :: queue =>
      if maxDepth ≤ depth then .inl { s with queue }
      else
        match (ends nid).foldlM (g.look depth) { s with queue } with
        | .ok next => .inl next
        | .error raised => .inr (.error raised)

def walk (g : LineageGraph) (ends : Text → List Text) (nodeId : Text) (maxDepth : Int) (fuel : Nat) :
    Option (Py (List (LineageNode × Nat))) :=
  if (g.nodes.get? nodeId).isNone then some (raise .keyError (txt "unknown node: " ++ nodeId))
  else Loop.iterate (g.walkBody ends maxDepth) fuel ⟨Dict.empty.set nodeId 0, [(nodeId, 0)], []⟩

def ancestors (g : LineageGraph) : Text → Int → Nat → Option (Py (List (LineageNode × Nat))) := g.walk g.up

def descendants (g : LineageGraph) : Text → Int → Nat → Option (Py (List (LineageNode × Nat))) := g.walk g.down

/-- The loop over the ends of a path's last node, which returns at the target. -/
def extend (toId : Text) (path : List Text) :
    List Text → List Text × List (List Text) → (List Text × List (List Text)) ⊕ List Text
  | [], s => .inl s
  | nxt :: rest, (visited, queue) =>
      if visited.contains nxt then extend toId path rest (visited, queue)
      else if nxt = toId then .inr (path ++ [nxt])
      else extend toId path rest (visited ++ [nxt], queue ++ [path ++ [nxt]])

def pathBody (g : LineageGraph) (toId : Text) :
    List Text × List (List Text) → (List Text × List (List Text)) ⊕ Option (List Text)
  | (_, []) => .inr none
  | (visited, path :: queue) =>
      match extend toId path ((path.getLast?.map g.down).getD []) (visited, queue) with
      | .inl next => .inl next
      | .inr found => .inr (some found)

def path (g : LineageGraph) (fromId toId : Text) (fuel : Nat) : Option (Option (List Text)) :=
  if (g.nodes.get? fromId).isNone ∨ (g.nodes.get? toId).isNone then some none
  else if fromId = toId then some (some [fromId])
  else Loop.iterate (g.pathBody toId) fuel ([fromId], [[fromId]])

/-! ## What a search keeps -/

section Walks

variable {g : LineageGraph} {ends : Text → List Text} {nodeId : Text} {maxDepth : Int}

/-- The search goes on from nodes of this depth. -/
def Deepens (maxDepth : Int) (depth : Nat) : Prop := (depth : Int) < maxDepth

theorem downward_deepens (maxDepth : Int) : Downward (Deepens maxDepth) := by
  intro j k le deep
  unfold Deepens at *
  omega

/-- What a search reports of the vertices found, all but the first. -/
structure Reports (g : LineageGraph) (found : List (Text × Nat)) (out : List (LineageNode × Nat)) : Prop where
  order : (out.map fun entry => (entry.1.nodeId, entry.2)) = found.tail
  nodes : ∀ entry ∈ out, g.nodes.get? entry.1.nodeId = some entry.1

/-- A search in terms of the vertices found. -/
structure Searches (g : LineageGraph) (found : List (Text × Nat)) (done : Nat) (s : Walking) : Prop where
  visited : s.visited.items = found
  queue : s.queue = found.drop done
  out : Reports g found s.out

theorem Searches.look {found : List (Text × Nat)} {done : Nat} {s : Walking} (searches : Searches g found done s)
    (wf : g.WellFormed) (inside : done ≤ found.length) (some : found ≠ []) {farId : Text} (has : g.Has farId) (depth : Nat) :
    ∃ next, g.look depth s farId = .ok next ∧ Searches g (discover (depth + 1) found farId) done next := by
  obtain ⟨node, here⟩ := has
  by_cases old : farId ∈ found.map Prod.fst
  · refine ⟨s, ?_, ?_⟩
    · have seen : (s.visited.get? farId).isSome = true := Dict.get?_isSome_iff.mpr (by rwa [searches.visited])
      simp [LineageGraph.look, seen]
    · rw [discover, if_pos old]
      exact searches
  · have unseen : s.visited.get? farId = none := by
      rw [Dict.get?, Dict.lookup_eq_none, searches.visited]
      exact old
    refine ⟨_, by simp [LineageGraph.look, unseen, nodeAt, here]; rfl, ?_⟩
    rw [discover, if_neg old]
    refine ⟨?_, ?_, ?_, ?_⟩
    · rw [Dict.items_set_absent unseen, searches.visited]
    · rw [searches.queue, List.drop_append_of_le_length inside]
    · rw [List.map_append, searches.out.order, List.tail_append_of_ne_nil some, List.map_singleton,
        wf.ids farId node here]
    · intro entry member
      rcases List.mem_append.mp member with before | new
      · exact searches.out.nodes entry before
      · obtain rfl := List.mem_singleton.mp new
        rw [wf.ids farId node here]
        exact here

theorem Searches.foldlM {found : List (Text × Nat)} {done : Nat} {s : Walking} (searches : Searches g found done s)
    (wf : g.WellFormed) (inside : done ≤ found.length) (some : found ≠ []) (depth : Nat) {farIds : List Text}
    (has : ∀ farId ∈ farIds, g.Has farId) :
    ∃ next, farIds.foldlM (g.look depth) s = .ok next ∧
      Searches g (farIds.foldl (discover (depth + 1)) found) done next := by
  induction farIds generalizing s found with
  | nil => exact ⟨s, rfl, searches⟩
  | cons farId farIds ih =>
      obtain ⟨middle, first, kept⟩ := searches.look wf inside some (has farId (.head _)) depth
      have longer := prefix_discover (depth + 1) found farId
      have nonempty : discover (depth + 1) found farId ≠ [] := fun empty => some (List.prefix_nil.mp (empty ▸ longer))
      obtain ⟨next, rest, searched⟩ := ih kept (inside.trans longer.length_le) nonempty
        fun farId member => has farId (.tail _ member)
      exact ⟨next, by rw [List.foldlM_cons, first]; exact rest, searched⟩

/-- The search from a node, with the number of nodes that are not done yet. -/
structure Ranked (g : LineageGraph) (ends : Text → List Text) (nodeId : Text) (maxDepth : Int) (s : Walking) (left : Nat)
    (found : List (Text × Nat)) (done : Nat) : Prop where
  search : Search ends nodeId (Deepens maxDepth) found done
  searches : Searches g found done s
  inside : done ≤ found.length
  left_eq : left + done = g.nodes.items.length

variable (wf : g.WellFormed) (closed : ∀ u, g.Has u → ∀ v ∈ ends u, g.Has v) (has : g.Has nodeId)
include closed has

theorem has_of_walk {n : Nat} {v : Text} (walk : Walk ends nodeId n v) : g.Has v := by
  induction walk with
  | here => exact has
  | step _ neighbour ih => exact closed _ ih _ neighbour

/-- No more vertices are found than the graph has nodes. -/
theorem length_found_le {within : Nat → Prop} {found : List (Text × Nat)} {done : Nat}
    (search : Search ends nodeId within found done) : found.length ≤ g.nodes.items.length := by
  have subset : found.map Prod.fst ⊆ g.nodes.items.map Prod.fst := by
    intro v member
    obtain ⟨e, inside, rfl⟩ := List.mem_map.mp member
    obtain ⟨node, here⟩ := has_of_walk closed has (search.walks e inside)
    exact Dict.get?_isSome_iff.mp (by rw [here]; rfl)
  simpa using (List.subperm_of_subset search.nodup subset).length_le

include wf

/-- The body of the loop finishes a node. -/
theorem Ranked.next {s : Walking} {left : Nat} {found : List (Text × Nat)} {done : Nat}
    (ranked : Ranked g ends nodeId maxDepth s left found done) {head : Text × Nat} {queue : List (Text × Nat)}
    (queued : s.queue = head :: queue) :
    ∃ next more, g.walkBody ends maxDepth s = .inl next ∧
      Ranked g ends nodeId maxDepth next (left - 1) more (done + 1) ∧ 0 < left := by
  obtain ⟨nid, depth⟩ := head
  have split := ranked.searches.queue
  rw [queued] at split
  have here : found[done]? = some (nid, depth) := by
    rw [← List.head?_drop, ← split]
    rfl
  have rest : queue = found.drop (done + 1) := by
    rw [← List.tail_drop, ← split]
    rfl
  obtain ⟨bounded, -⟩ := List.getElem?_eq_some_iff.mp here
  have limit := length_found_le closed has ranked.search
  have left_eq := ranked.left_eq
  have popped : Searches g found (done + 1) { s with queue } :=
    ⟨ranked.searches.visited, rest, ranked.searches.out⟩
  by_cases deep : Deepens maxDepth depth
  · have nonempty : found ≠ [] := by
      rintro rfl
      simp at bounded
    have ends_has : ∀ farId ∈ ends nid, g.Has farId :=
      closed nid (has_of_walk closed has (ranked.search.walks _ (List.mem_of_getElem? here)))
    obtain ⟨next, looked, searches⟩ := popped.foldlM wf bounded nonempty depth ends_has
    have shallow : ¬maxDepth ≤ depth := not_le.mpr deep
    refine ⟨next, _, by simp [walkBody, queued, shallow, looked], ⟨ranked.search.expand here deep, searches, ?_, ?_⟩, ?_⟩
    · exact Nat.le_trans bounded (prefix_foldl_discover _ _ _).length_le
    · omega
    · omega
  · have too_deep : maxDepth ≤ depth := not_lt.mp deep
    refine ⟨_, found, by simp [walkBody, queued, too_deep], ⟨ranked.search.skip here deep, popped, bounded, ?_⟩, ?_⟩
    · omega
    · omega

/-- The search ends and reports what it found. -/
theorem exists_walk (node : g.nodes.get? nodeId ≠ none) :
    ∃ fuel out found, g.walk ends nodeId maxDepth fuel = some (.ok out) ∧ Reports g found out ∧
      Search ends nodeId (Deepens maxDepth) found found.length := by
  have lower (s : Walking) (left : Nat) (next : Walking)
      (ranked : ∃ found done, Ranked g ends nodeId maxDepth s left found done)
      (onward : g.walkBody ends maxDepth s = .inl next) :
      ∃ m < left, ∃ found done, Ranked g ends nodeId maxDepth next m found done := by
    obtain ⟨found, done, ranked⟩ := ranked
    cases queued : s.queue with
    | nil => simp [walkBody, queued] at onward
    | cons head queue =>
        obtain ⟨after, more, stepped, kept, positive⟩ := ranked.next wf closed has queued
        obtain rfl : next = after := Sum.inl.inj (onward.symm.trans stepped)
        exact ⟨left - 1, by omega, more, _, kept⟩
  have start : Ranked g ends nodeId maxDepth ⟨Dict.empty.set nodeId 0, [(nodeId, 0)], []⟩ g.nodes.items.length
      [(nodeId, 0)] 0 := by
    refine ⟨search_start ends nodeId _, ⟨rfl, rfl, rfl, by simp⟩, by simp, rfl⟩
  obtain ⟨result, last, left, ⟨fuel, returned⟩, ⟨found, done, ranked⟩, ended⟩ :=
    Loop.exists_returns lower ⟨_, _, start⟩
  cases queued : last.queue with
  | cons head queue =>
      obtain ⟨after, more, stepped, -⟩ := ranked.next wf closed has queued
      rw [stepped] at ended
      cases ended
  | nil =>
      have all : found.length ≤ done := by
        rw [← List.drop_eq_nil_iff, ← ranked.searches.queue, queued]
      obtain rfl : done = found.length := le_antisymm ranked.inside all
      obtain rfl : result = .ok last.out := by simpa [walkBody, queued, eq_comm] using ended
      refine ⟨fuel, last.out, found, ?_, ranked.searches.out, ranked.search⟩
      rw [walk, if_neg (by simpa using node), returned]

end Walks

/-! ## What is found within a bound -/

/-- Each node that a walk of at least one and at most `maxDepth` steps leads to, other than the start, once
and with its distance. -/
structure FoundWithin (g : LineageGraph) (ends : Text → List Text) (nodeId : Text) (maxDepth : Int)
    (out : List (LineageNode × Nat)) : Prop where
  once : (out.map fun entry => entry.1.nodeId).Nodup
  mem_iff : ∀ node depth, (node, depth) ∈ out ↔ g.nodes.get? node.nodeId = some node ∧ node.nodeId ≠ nodeId ∧
    Distance ends nodeId node.nodeId depth ∧ (depth : Int) ≤ maxDepth

theorem distance_zero {V : Type} {next : V → List V} {start v : V} (zero : Distance next start v 0) : v = start := by
  cases zero.1
  rfl

theorem foundWithin {g : LineageGraph} {ends : Text → List Text} {nodeId : Text} {maxDepth : Int}
    {found : List (Text × Nat)} {out : List (LineageNode × Nat)} (reports : Reports g found out)
    (search : Search ends nodeId (Deepens maxDepth) found found.length) : FoundWithin g ends nodeId maxDepth out := by
  obtain ⟨rest, split⟩ : ∃ rest, found = (nodeId, 0) :: rest := by
    cases found with
    | nil => simpa using search.first
    | cons first rest => exact ⟨rest, by rw [Option.some.inj search.first]⟩
  have order : (out.map fun entry => (entry.1.nodeId, entry.2)) = rest := by rw [reports.order, split, List.tail_cons]
  have nodup := search.nodup
  rw [split, List.map_cons, List.nodup_cons] at nodup
  have listed {node : LineageNode} {depth : Nat} (member : (node, depth) ∈ out) : (node.nodeId, depth) ∈ rest := by
    rw [← order]
    exact List.mem_map.mpr ⟨_, member, rfl⟩
  constructor
  · have once := nodup.2
    rw [← order, List.map_map] at once
    exact once
  · intro node depth
    have within : (node.nodeId, depth) ∈ found ↔ Distance ends nodeId node.nodeId depth ∧
        ∀ j, depth = j + 1 → Deepens maxDepth j := search.mem_iff (downward_deepens maxDepth) le_rfl
    constructor
    · intro member
      have inside := listed member
      have other : node.nodeId ≠ nodeId := by
        intro same
        have there : node.nodeId ∈ rest.map Prod.fst := List.mem_map_of_mem inside
        rw [same] at there
        exact nodup.1 there
      obtain ⟨distance, deep⟩ := within.mp (split ▸ .tail _ inside)
      refine ⟨reports.nodes _ member, other, distance, ?_⟩
      cases depth with
      | zero => exact absurd (distance_zero distance) other
      | succ j =>
          have bounded : (j : Int) < maxDepth := deep j rfl
          push_cast
          omega
    · intro ⟨here, other, distance, bounded⟩
      have inside : (node.nodeId, depth) ∈ found := by
        refine within.mpr ⟨distance, fun j same => ?_⟩
        unfold Deepens
        omega
      rw [split] at inside
      have listed : (node.nodeId, depth) ∈ rest := by
        rcases List.mem_cons.mp inside with first | later
        · exact absurd (congrArg Prod.fst first) other
        · exact later
      rw [← order] at listed
      obtain ⟨⟨same, depth⟩, member, pair⟩ := List.mem_map.mp listed
      obtain ⟨id, rfl⟩ := Prod.mk.inj pair
      have known := reports.nodes _ member
      rw [id, here] at known
      cases known
      exact member

/-! ## A shortest path -/

section Paths

variable {g : LineageGraph} {fromId toId : Text}

/-- A path along the edges of the graph. -/
abbrev Leads (g : LineageGraph) (fromId toId : Text) (path : List Text) : Prop :=
  Route (fun u v => v ∈ g.down u) fromId toId path

/-- Every vertex that is queued stands at the end of a path as long as its depth says. -/
structure Routes (g : LineageGraph) (fromId toId : Text) (found : List (Text × Nat)) (done : Nat)
    (s : List Text × List (List Text)) : Prop where
  visited : s.1 = found.map Prod.fst
  queue : List.Forall₂ (fun path entry => g.Leads fromId entry.1 path ∧ path.length = entry.2 + 1) s.2 (found.drop done)
  missing : toId ∉ found.map Prod.fst

/-- The ends of the last node's edges are queued up to the target, if that is one of them. -/
theorem Routes.extend {found : List (Text × Nat)} {done k : Nat} {s : List Text × List (List Text)}
    (routes : Routes g fromId toId found done s) (inside : done ≤ found.length) {u : Text} {path : List Text}
    (leads : g.Leads fromId u path) (length : path.length = k + 1) {nexts : List Text} (edges : ∀ v ∈ nexts, v ∈ g.down u) :
    (∃ next, LineageGraph.extend toId path nexts s = .inl next ∧
      Routes g fromId toId (nexts.foldl (discover (k + 1)) found) done next) ∨
    LineageGraph.extend toId path nexts s = .inr (path ++ [toId]) ∧ toId ∈ nexts := by
  induction nexts generalizing s found with
  | nil => exact .inl ⟨s, rfl, routes⟩
  | cons nxt nexts ih =>
      have later : ∀ v ∈ nexts, v ∈ g.down u := fun v member => edges v (.tail _ member)
      simp only [List.foldl_cons, LineageGraph.extend, routes.visited, List.contains_iff_mem]
      by_cases old : nxt ∈ found.map Prod.fst
      · rw [if_pos old, discover, if_pos old]
        rcases ih routes inside later with ⟨next, extended, kept⟩ | ⟨arrived, member⟩
        · exact .inl ⟨next, by rw [← extended, ← routes.visited], kept⟩
        · exact .inr ⟨by rw [← arrived, ← routes.visited], .tail _ member⟩
      · rw [if_neg old, discover, if_neg old]
        by_cases target : nxt = toId
        · subst target
          exact .inr ⟨if_pos rfl, .head _⟩
        · rw [if_neg target]
          have grown : Routes g fromId toId (found ++ [(nxt, k + 1)]) done
              (found.map Prod.fst ++ [nxt], s.2 ++ [path ++ [nxt]]) := by
            refine ⟨by simp, ?_, ?_⟩
            · rw [List.drop_append_of_le_length inside]
              refine List.rel_append routes.queue (.cons ⟨leads.concat (edges nxt (.head _)), ?_⟩ .nil)
              simp [length]
            · rw [List.map_append, List.mem_append, not_or]
              exact ⟨routes.missing, by simpa using Ne.symm target⟩
          rcases ih grown (by simp; omega) later with ⟨next, extended, kept⟩ | ⟨arrived, member⟩
          · exact .inl ⟨next, extended, kept⟩
          · exact .inr ⟨arrived, .tail _ member⟩

/-- A path that no other is shorter than. -/
structure Shortest (g : LineageGraph) (fromId toId : Text) (path : List Text) : Prop where
  leads : g.Leads fromId toId path
  least : ∀ other, g.Leads fromId toId other → path.length ≤ other.length

/-- The search for a path, with the number of nodes that are not done yet. -/
structure Seeks (g : LineageGraph) (fromId toId : Text) (s : List Text × List (List Text)) (left : Nat)
    (found : List (Text × Nat)) (done : Nat) : Prop where
  search : Search g.down fromId (fun _ => True) found done
  routes : Routes g fromId toId found done s
  inside : done ≤ found.length
  left_eq : left + done = g.nodes.items.length

/-- What the search returns is right: a shortest path, or nothing where there is no path. -/
structure Answers (g : LineageGraph) (fromId toId : Text) (r : Option (List Text)) : Prop where
  shortest : ∀ path ∈ r, g.Shortest fromId toId path
  none : r = none → ¬∃ path, g.Leads fromId toId path

variable (wf : g.WellFormed) (has : g.Has fromId)
include wf has

theorem Seeks.next {s : List Text × List (List Text)} {left : Nat} {found : List (Text × Nat)} {done : Nat}
    (seeks : Seeks g fromId toId s left found done) :
    (∃ next more, g.pathBody toId s = .inl next ∧ Seeks g fromId toId next (left - 1) more (done + 1) ∧ 0 < left) ∨
    ∃ r, g.pathBody toId s = .inr r ∧ Answers g fromId toId r := by
  obtain ⟨visited, queue⟩ := s
  have queued := seeks.routes.queue
  cases queue with
  | nil =>
      have empty : found.drop done = [] := (List.forall₂_nil_left_iff.mp queued)
      obtain rfl : done = found.length := le_antisymm seeks.inside (List.drop_eq_nil_iff.mp empty)
      refine .inr ⟨none, rfl, nofun, fun _ ⟨path, leads⟩ => ?_⟩
      obtain ⟨j, -, member⟩ := seeks.search.found_of_walk (fun _ _ _ _ => trivial) (m := path.length - 1)
        (fun i waiting e here => by simp [List.getElem?_eq_none waiting] at here) (walk_of_route leads) le_rfl
        fun _ _ => trivial
      exact seeks.routes.missing (List.mem_map_of_mem member)
  | cons path queue =>
      obtain ⟨⟨u, k⟩, rest, ⟨leads, length⟩, others, split⟩ := List.forall₂_cons_left_iff.mp queued
      have here : found[done]? = some (u, k) := by
        rw [← List.head?_drop, split]
        rfl
      have rest_eq : rest = found.drop (done + 1) := by
        rw [← List.tail_drop, split]
        rfl
      obtain ⟨bounded, -⟩ := List.getElem?_eq_some_iff.mp here
      have limit := length_found_le (fun u _ v step => (wf.ends u v step).2) has seeks.search
      have left_eq := seeks.left_eq
      have popped : Routes g fromId toId found (done + 1) (visited, queue) :=
        ⟨seeks.routes.visited, rest_eq ▸ others, seeks.routes.missing⟩
      have ends : (path.getLast?.map g.down).getD [] = g.down u := by rw [leads.ends]; rfl
      rcases popped.extend bounded leads length (fun v member => member) with ⟨next, extended, kept⟩ | ⟨arrived, member⟩
      · refine .inl ⟨next, _, by simp only [pathBody, ends, extended], ⟨?_, kept, ?_, ?_⟩, ?_⟩
        · exact seeks.search.expand here trivial
        · exact Nat.le_trans bounded (prefix_foldl_discover _ _ _).length_le
        · omega
        · omega
      · refine .inr ⟨some (path ++ [toId]), by simp only [pathBody, ends, arrived], ?_, nofun⟩
        intro found_path same
        cases same
        refine ⟨leads.concat member, fun other leads_other => ?_⟩
        by_contra shorter
        -- a shorter path would have led to the target before this vertex was expanded
        have steps : other.length - 1 ≤ k := by
          rw [List.length_append, length, List.length_singleton] at shorter
          omega
        obtain ⟨j, -, early⟩ := seeks.search.found_of_walk (fun _ _ _ _ => trivial) (seeks.search.rest_of_head here)
          (walk_of_route leads_other) steps fun _ _ => trivial
        exact seeks.routes.missing (List.mem_map_of_mem early)

theorem exists_path (present : g.Has toId) :
    ∃ fuel r, g.path fromId toId fuel = some r ∧ Answers g fromId toId r := by
  obtain ⟨source, from_node⟩ := has
  obtain ⟨target, to_node⟩ := present
  by_cases same : fromId = toId
  · subst same
    refine ⟨0, some [fromId], by simp [path, from_node], ?_, nofun⟩
    intro path found
    cases found
    exact ⟨route_self _ fromId, fun other leads => List.length_pos_iff.mpr leads.ne_nil⟩
  have lower (s : List Text × List (List Text)) (left : Nat) (next : List Text × List (List Text))
      (seeks : ∃ found done, Seeks g fromId toId s left found done) (onward : g.pathBody toId s = .inl next) :
      ∃ m < left, ∃ found done, Seeks g fromId toId next m found done := by
    obtain ⟨found, done, seeks⟩ := seeks
    rcases seeks.next wf ⟨source, from_node⟩ with ⟨after, more, stepped, kept, positive⟩ | ⟨r, ended, -⟩
    · obtain rfl : next = after := Sum.inl.inj (onward.symm.trans stepped)
      exact ⟨left - 1, by omega, more, _, kept⟩
    · rw [onward] at ended
      cases ended
  have start : Seeks g fromId toId ([fromId], [[fromId]]) g.nodes.items.length [(fromId, 0)] 0 := by
    refine ⟨search_start _ fromId _, ⟨rfl, .cons ⟨route_self _ fromId, rfl⟩ .nil, ?_⟩, by simp, rfl⟩
    simpa using Ne.symm same
  obtain ⟨result, last, left, ⟨fuel, returned⟩, ⟨found, done, seeks⟩, ended⟩ :=
    Loop.exists_returns lower ⟨_, _, start⟩
  refine ⟨fuel, result, by simp [path, from_node, to_node, same, returned], ?_⟩
  rcases seeks.next wf ⟨source, from_node⟩ with ⟨after, more, stepped, -⟩ | ⟨r, stopped, answers⟩
  · rw [stepped] at ended
    cases ended
  · obtain rfl : r = result := Sum.inr.inj (stopped.symm.trans ended)
    exact answers

end Paths

end Senex.Antifragility.LineageGraph
