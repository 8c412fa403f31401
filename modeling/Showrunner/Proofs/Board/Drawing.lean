import Showrunner.Proofs.Board.Labels

/-!
# What a board is compiled to

A compiled board shows what was drawn and what the configurations of its nodes add, and nothing
else. The statement below says so of each part of a definition in terms of the lists of authored
nodes and connections: which nodes there are, where the run begins, and for each node its edges, its
next node and the nodes before it.

It is about every board. Of a case with a value that is too large to be written the label is a matter
of this compiler alone; no board that a request brings has one (`Web.casesSized_submission`).
-/

namespace Showrunner

namespace Board

/-- A node that runs is what an authored node and the connections of the board make of it. -/
structure MadeOf (b : Board) (authored : Node) (n : Definition.Node) : Prop where
  id : n.id = authored.id
  cfg : n.cfg = authored.config
  kind : (n.kind, n.sub) = resolveKind authored.kind authored.config
  drawn : (b.branches authored.id).map (·.target) =
    (b.connections.filter (·.source = authored.id)).eraseDups.map (·.target)
  edges : n.edges = b.branches authored.id ++
    ((configEdges n.kind n.cfg).filter
      (·.label ∉ (b.branches authored.id).map (·.label))).eraseDupsBy fun e f => e.label = f.label
  labels : (n.edges.map (·.label)).Nodup
  next : n.next = (b.branches authored.id).head?.map (·.target)
  prev : n.prev = ((b.connections.filter (·.target = authored.id)).map (·.source)).eraseDups

/-- The branches of a node lead where its distinct connections lead. -/
theorem map_target_branches (b : Board) (id : Text) :
    (b.branches id).map (·.target) =
      (b.connections.filter (·.source = id)).eraseDups.map (·.target) := by
  rw [branches, map_target_branchesFrom, leaving, firsts_eq_eraseDups]

/-- The first branch of a node leads where its first connection leads. -/
theorem head?_branches (b : Board) (id : Text) :
    (b.branches id).head?.map (·.target) =
      (b.connections.find? (·.source = id)).map (·.target) := by
  rw [← List.head?_map, branches, map_target_branchesFrom, leaving, List.head?_map, head?_firsts,
    List.head?_filter]

/-- The root is where the first connection from the start leads, or empty. -/
theorem root_compile (b : Board) (id name : Text) (version : Int) :
    (b.compile id name version).root =
      ((b.connections.find? (·.source = startId)).map (·.target)).getD [] :=
  congrArg (·.getD []) (b.head?_branches startId)

/-- A compiled node is made of the authored one. -/
theorem madeOf_compileNode (b : Board) (authored : Node) :
    b.MadeOf authored (b.compileNode authored) where
  id := rfl
  cfg := rfl
  kind := rfl
  drawn := b.map_target_branches authored.id
  edges := by
    simp only [compileNode, unusedEdges_eq_firstsBy, firstsBy_eq_eraseDupsBy]
    congr 2
    exact List.filter_congr fun e _ => decide_eq_decide.mpr Iff.rfl
  labels := b.nodup_labels_compileNode authored
  next := rfl
  prev := firsts_eq_eraseDups _

/-- The nodes that run have the distinct ids of the authored nodes, without that of the start. -/
theorem map_id_runningNodes (b : Board) :
    b.runningNodes.map Node.id = (b.nodes.map Node.id).eraseDups.filter (· ≠ startId) := by
  rw [runningNodes, firstNodes, ← firsts_eq_eraseDups, firsts, ← map_firstsBy, List.filter_map]
  rfl

/-- A node that runs is the first of the authored nodes with its id. -/
theorem find?_of_mem_runningNodes {b : Board} {authored : Node} (h : authored ∈ b.runningNodes) :
    b.nodes.find? (·.id = authored.id) = some authored :=
  find?_of_mem_firstsBy (List.mem_filter.mp h).1

/-- A node leads to another by a branch if a connection leads from one to the other. -/
theorem mem_map_target_branches {b : Board} {id target : Text} :
    target ∈ (b.branches id).map (·.target) ↔
      ∃ c ∈ b.connections, c.source = id ∧ c.target = target := by
  simp only [map_target_branches, List.mem_map, List.mem_eraseDups, List.mem_filter,
    decide_eq_true_eq, and_assoc]

/-- A compiled board has the nodes that are authored under an id other than that of the start. -/
theorem mem_map_fst_compile {b : Board} {id name i : Text} {version : Int} :
    i ∈ (b.compile id name version).nodes.map Prod.fst ↔ i ∈ b.nodes.map Node.id ∧ i ≠ startId := by
  have hids : (b.compile id name version).nodes.map Prod.fst = b.runningNodes.map Node.id :=
    List.map_map
  rw [hids, map_id_runningNodes, List.mem_filter, List.mem_eraseDups, decide_eq_true_eq]

/-- The next node of a compiled node is where one of its branches leads. -/
theorem exists_branch_of_next {b : Board} {id name i target : Text} {version : Int}
    {n : Definition.Node} (hmem : (i, n) ∈ (b.compile id name version).nodes)
    (hnext : n.next = some target) : ∃ e ∈ b.branches i, e.target = target := by
  obtain ⟨authored, -, heq⟩ := List.mem_map.mp hmem
  cases heq
  obtain ⟨e, he, htarget⟩ := Option.map_eq_some_iff.mp hnext
  exact ⟨e, List.mem_of_mem_head? he, htarget⟩

/-- A compiled board has a node for each distinct id that was drawn, other than that of the start, in
the order in which the ids were first seen. Its root is where the first connection from the start
leads, or empty. Each of its nodes is made of the first authored node with its id. -/
theorem compile_as_drawn (b : Board) (id name : Text) (version : Int) :
    let d := b.compile id name version
    d.nodes.map Prod.fst = (b.nodes.map Node.id).eraseDups.filter (· ≠ startId) ∧
    d.root = ((b.connections.find? (·.source = startId)).map (·.target)).getD [] ∧
    ∀ i n, (i, n) ∈ d.nodes →
      ∃ authored, b.nodes.find? (·.id = i) = some authored ∧ b.MadeOf authored n := by
  intro d
  refine ⟨?_, ?_, fun i n hmem => ?_⟩
  · rw [← map_id_runningNodes]
    exact List.map_map
  · exact b.root_compile id name version
  · obtain ⟨authored, hrunning, heq⟩ := List.mem_map.mp hmem
    cases heq
    exact ⟨authored, find?_of_mem_runningNodes hrunning, b.madeOf_compileNode authored⟩

/-- A filter that is drawn twice, with a connection drawn twice, two branches of one label, a branch
without label, and two branches in its configuration. -/
def tangled : Board :=
  let branching : Fields :=
    [(text "nextTrue", .str (text "b")), (text "nextFalse", .str (text "c"))]
  { nodes := [⟨text "a", text "filter", branching⟩, ⟨startId, text "action", []⟩,
      ⟨text "b", text "action", []⟩, ⟨text "a", text "delay", []⟩]
    connections := [⟨text "a", text "b", some (text "true")⟩,
      ⟨text "a", text "b", some (text "true")⟩, ⟨text "a", text "c", some (text "true")⟩,
      ⟨startId, text "a", none⟩, ⟨text "a", text "b", none⟩] }

-- The filter keeps its three connections under labels of their own, and of the branches in its
-- configuration the one whose label is free.
example :
    let d := tangled.compile (text "d") (text "Untitled") 1
    d.nodes.map Prod.fst = [text "a", text "b"] ∧ d.root = text "a" ∧
    (d.nodes.lookup (text "a")).map (fun n => (n.kind, n.next, n.prev)) =
      some (text "filter", some (text "b"), [startId]) ∧
    (d.nodes.lookup (text "a")).map (·.edges) =
      some [⟨text "true", text "b"⟩, ⟨text "true-1", text "c"⟩, ⟨text "branch-2", text "b"⟩,
        ⟨text "false", text "c"⟩] := by decide

end Board

end Showrunner
