import Showrunner.Proofs.Board.Closure

/-!
# Links forth and back

A node of a definition shows the edges that lead on from it and the nodes that come before it. The
nodes before it are those from which a connection was drawn. An edge that only a configuration names
leads on without a link back, so the links of a definition agree exactly if each such edge goes where
a connection was drawn as well.
-/

namespace Showrunner

/-- An edge of the node leads to another. -/
def Definition.Node.LeadsTo (n : Definition.Node) (id : Text) : Prop := ∃ e ∈ n.edges, e.target = id

/-- A node comes before another exactly if one of its edges leads there. -/
def Definition.Linked (d : Definition) : Prop :=
  ∀ u ∈ d.nodes, ∀ v ∈ d.nodes, u.1 ∈ v.2.prev ↔ u.2.LeadsTo v.1

namespace Board

variable {b : Board} {id name : Text} {version : Int} {u v : Text × Definition.Node}

/-- The nodes before a compiled node are those from which a connection leads to it. -/
theorem mem_prev_compile {i : Text} (hv : v ∈ (b.compile id name version).nodes) :
    i ∈ v.2.prev ↔ ∃ c ∈ b.connections, c.source = i ∧ c.target = v.1 := by
  obtain ⟨authored, -, rfl⟩ := List.mem_map.mp hv
  change i ∈ b.entering authored.id ↔ ∃ c ∈ b.connections, c.source = i ∧ c.target = authored.id
  simp only [entering, mem_firsts, List.mem_map, List.mem_filter, decide_eq_true_eq]
  constructor
  · rintro ⟨c, ⟨hc, htarget⟩, hsource⟩
    exact ⟨c, hc, hsource, htarget⟩
  · rintro ⟨c, hc, hsource, htarget⟩
    exact ⟨c, ⟨hc, htarget⟩, hsource⟩

/-- The nodes before a compiled node are those with a drawn branch that leads to it. -/
theorem mem_prev_iff_branch {i : Text} (hv : v ∈ (b.compile id name version).nodes) :
    i ∈ v.2.prev ↔ ∃ e ∈ b.branches i, e.target = v.1 := by
  rw [mem_prev_compile hv, ← mem_map_target_branches, List.mem_map]

/-- The drawn branches come first among the edges of a compiled node, and the others are named by its
configuration. -/
theorem edges_compile (hu : u ∈ (b.compile id name version).nodes) :
    b.branches u.1 <+: u.2.edges ∧
      ∀ e ∈ u.2.edges, e ∈ b.branches u.1 ∨ e ∈ configEdges u.2.kind u.2.cfg := by
  obtain ⟨authored, -, rfl⟩ := List.mem_map.mp hu
  exact ⟨List.prefix_append _ _, fun e he => mem_edges_compileNode he⟩

/-- A node that comes before another leads to it. -/
theorem leadsTo_of_mem_prev (hu : u ∈ (b.compile id name version).nodes)
    (hv : v ∈ (b.compile id name version).nodes) (h : u.1 ∈ v.2.prev) : u.2.LeadsTo v.1 := by
  obtain ⟨e, he, htarget⟩ := (mem_prev_iff_branch hv).mp h
  exact ⟨e, (edges_compile hu).1.mem he, htarget⟩

/-- A node comes before another exactly if one of its drawn branches leads there. Its edges are these
branches and then some that its configuration names. The links of the definition agree exactly if each
edge that a configuration names and that leads to a node goes where a connection was drawn too. -/
theorem prev_iff_drawn (b : Board) (id name : Text) (version : Int) :
    let d := b.compile id name version
    (∀ u ∈ d.nodes,
      b.branches u.1 <+: u.2.edges ∧
      (∀ e ∈ u.2.edges, e ∈ b.branches u.1 ∨ e ∈ configEdges u.2.kind u.2.cfg) ∧
      ∀ v ∈ d.nodes, u.1 ∈ v.2.prev ↔ ∃ e ∈ b.branches u.1, e.target = v.1) ∧
    (d.Linked ↔ ∀ u ∈ d.nodes, ∀ e ∈ u.2.edges, e ∈ configEdges u.2.kind u.2.cfg →
      ∀ v ∈ d.nodes, e.target = v.1 → u.1 ∈ v.2.prev) := by
  intro d
  refine ⟨fun u hu => ?_, fun hlinked u hu e he _ v hv htarget => ?_, fun hconfig u hu v hv => ?_⟩
  · obtain ⟨hfirst, hedges⟩ := edges_compile hu
    exact ⟨hfirst, hedges, fun v hv => mem_prev_iff_branch hv⟩
  · exact (hlinked u hu v hv).mpr ⟨e, he, htarget⟩
  · refine ⟨leadsTo_of_mem_prev hu hv, ?_⟩
    rintro ⟨e, he, htarget⟩
    rcases (edges_compile hu).2 e he with hdrawn | hadded
    · exact (mem_prev_iff_branch hv).mpr ⟨e, hdrawn, htarget⟩
    · exact hconfig u hu e he hadded v hv htarget

/-- The links of a filter agree that leads by a connection to the only node which its configuration
names. -/
theorem tangled_linked :
    let d := tangled.compile (text "d") (text "Untitled") 1
    d.Linked ∧ ∃ u ∈ d.nodes, ∃ v ∈ d.nodes, u.2.LeadsTo v.1 := by
  intro d
  refine ⟨(prev_iff_drawn tangled (text "d") (text "Untitled") 1).2.mpr (by decide), ?_⟩
  exact ⟨_, .head _, _, .tail _ (.head _), ⟨text "true", text "b"⟩, .head _, rfl⟩

/-- A switch with a case for a node to which no connection was drawn. -/
def switched : Board :=
  let case : Fields := [(text "value", .str (text "red")), (text "next", .str (text "r"))]
  { nodes := [⟨text "s", text "switch", [(text "cases", .arr [.obj case])]⟩,
      ⟨text "r", text "action", []⟩]
    connections := [⟨startId, text "s", none⟩] }

/-- The switch leads to the node of its case, but does not come before it. -/
theorem switched_not_linked :
    let d := switched.compile (text "d") (text "Untitled") 1
    d.nodes.map (fun (i, n) => (i, n.edges, n.prev)) =
      [(text "s", [⟨text "red", text "r"⟩], [startId]), (text "r", [], [])] ∧
    ¬d.Linked := by
  refine ⟨by decide, fun hlinked => ?_⟩
  have hbefore := (hlinked _ (.head _) _ (.tail _ (.head _))).mpr
    ⟨⟨text "red", text "r"⟩, .head _, rfl⟩
  exact absurd hbefore (by decide)

end Board

end Showrunner
