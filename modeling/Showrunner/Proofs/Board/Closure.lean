import Showrunner.Board.Check
import Showrunner.Proofs.Board.Drawing

/-!
# What a check without warnings guarantees

A check looks at the connections of a board. If it has nothing to warn of, then every connection
leads from the start or a node to a node, and the root, the next nodes and the branches that were
drawn lead to nodes that run. Branches that only a configuration names are not looked at: whether
they lead to nodes is what remains between such a board and a closed definition.
-/

namespace Showrunner

/-- The root, the next nodes and the branches all lead to nodes of the definition. -/
structure Definition.Closed (d : Definition) : Prop where
  root : d.root ∈ d.nodes.map Prod.fst
  next : ∀ i n, (i, n) ∈ d.nodes → ∀ target, n.next = some target → target ∈ d.nodes.map Prod.fst
  edges : ∀ i n, (i, n) ∈ d.nodes → ∀ e ∈ n.edges, e.target ∈ d.nodes.map Prod.fst

namespace Board

/-- There is nothing to warn of about a connection into a node, from a node or the start. -/
theorem connectionWarnings_eq_nil {ids : List Text} {c : Connection} :
    connectionWarnings ids c = [] ↔
      (c.source = startId ∨ c.source ∈ ids) ∧ c.target ≠ startId ∧ c.target ∈ ids := by
  have hsource : (if c.source != startId && !ids.contains c.source then
      [Warning.unknownSource c.source] else []) = [] ↔ c.source = startId ∨ c.source ∈ ids := by
    by_cases hstart : c.source = startId
    · simp [hstart]
    · simp [hstart]
  have htarget : (if c.target = startId then [Warning.intoStart]
      else if !ids.contains c.target then [.unknownTarget c.target] else []) = [] ↔
        c.target ≠ startId ∧ c.target ∈ ids := by
    by_cases hstart : c.target = startId
    · simp [hstart]
    · simp [hstart]
  rw [connectionWarnings, List.append_eq_nil_iff, hsource, htarget]

/-- Without warnings, each connection leads to a node other than the start. -/
theorem target_of_no_warnings {b : Board} (h : b.warnings = []) {c : Connection}
    (hc : c ∈ b.connections) : c.target ∈ b.nodes.map Node.id ∧ c.target ≠ startId := by
  simp only [warnings, List.append_eq_nil_iff] at h
  have hnone := List.flatMap_eq_nil_iff.mp h.1.1.2 c hc
  obtain ⟨-, hstart, hknown⟩ := connectionWarnings_eq_nil.mp hnone
  exact ⟨hknown, hstart⟩

/-- Without warnings, a connection leaves the start. -/
theorem exists_connection_of_no_warnings {b : Board} (h : b.warnings = []) :
    ∃ c, b.connections.find? (·.source = startId) = some c := by
  simp only [warnings, List.append_eq_nil_iff] at h
  have hreach := h.1.2
  rw [reachWarnings] at hreach
  split at hreach
  · cases hreach
  · next hrooted =>
    cases hfind : b.connections.find? (·.source = startId) with
    | some c => exact ⟨c, rfl⟩
    | none =>
      refine absurd ?_ hrooted
      rw [Definition.isDegenerate, root_compile, hfind]
      rfl

/-- Without warnings, the branches that are drawn lead to nodes that run. -/
theorem branches_lead_of_no_warnings {b : Board} (h : b.warnings = []) (id name : Text)
    (version : Int) {i target : Text} (hlead : target ∈ (b.branches i).map (·.target)) :
    target ∈ (b.compile id name version).nodes.map Prod.fst := by
  obtain ⟨c, hc, -, rfl⟩ := mem_map_target_branches.mp hlead
  exact mem_map_fst_compile.mpr (target_of_no_warnings h hc)

/-- Without warnings, the root is a node that runs. -/
theorem root_mem_of_no_warnings {b : Board} (h : b.warnings = []) (id name : Text)
    (version : Int) :
    (b.compile id name version).root ∈ (b.compile id name version).nodes.map Prod.fst := by
  obtain ⟨c, hc⟩ := exists_connection_of_no_warnings h
  rw [root_compile, hc, Option.map_some, Option.getD_some]
  exact mem_map_fst_compile.mpr (target_of_no_warnings h (List.mem_of_find?_eq_some hc))

/-- An edge of a compiled node was drawn or is named by the configuration. -/
theorem mem_edges_compileNode {b : Board} {n : Node} {e : Definition.Edge}
    (h : e ∈ (b.compileNode n).edges) :
    e ∈ b.branches n.id ∨ e ∈ configEdges (b.compileNode n).kind n.config := by
  rcases List.mem_append.mp h with hdrawn | hadded
  · exact .inl hdrawn
  · rw [unusedEdges_eq_firstsBy] at hadded
    exact .inr (mem_firstsBy hadded).1

/-- A board without warnings compiles to a definition whose root, next nodes and drawn branches all
lead to its nodes. It is closed exactly if the branches that it has from configurations do so too. -/
theorem closed_of_no_warnings {b : Board} {registry : Option Registry}
    (h : (b.check registry).warnings = []) (id name : Text) (version : Int) :
    let d := b.compile id name version
    let ids := d.nodes.map Prod.fst
    d.root ∈ ids ∧
    (∀ i n, (i, n) ∈ d.nodes →
      (∀ target, n.next = some target → target ∈ ids) ∧ ∀ e ∈ b.branches i, e.target ∈ ids) ∧
    (d.Closed ↔ ∀ i n, (i, n) ∈ d.nodes →
      ∀ e ∈ n.edges, e ∈ configEdges n.kind n.cfg → e.target ∈ ids) := by
  intro d ids
  have hnone : b.warnings = [] := List.map_eq_nil_iff.mp h
  have hroot : d.root ∈ ids := root_mem_of_no_warnings hnone id name version
  have hdrawn : ∀ i, ∀ e ∈ b.branches i, e.target ∈ ids := fun i e he =>
    branches_lead_of_no_warnings hnone id name version (List.mem_map_of_mem he)
  have hnext : ∀ i n, (i, n) ∈ d.nodes → ∀ target, n.next = some target → target ∈ ids := by
    intro i n hmem target hnext
    obtain ⟨e, he, rfl⟩ := exists_branch_of_next hmem hnext
    exact hdrawn i e he
  refine ⟨hroot, fun i n hmem => ⟨hnext i n hmem, hdrawn i⟩, fun hclosed i n hmem e he _ =>
    hclosed.edges i n hmem e he, fun hconfig => ⟨hroot, hnext, fun i n hmem e he => ?_⟩⟩
  -- an edge was drawn, which the warnings cover, or comes from the configuration
  have hnode := hconfig i n hmem e he
  obtain ⟨authored, -, heq⟩ := List.mem_map.mp hmem
  cases heq
  rcases mem_edges_compileNode he with hbranch | hadded
  · exact hdrawn _ e hbranch
  · exact hnode hadded

/-- A root that is a node is reachable. -/
theorem root_mem_reachable {d : Definition} (h : d.root ∈ d.nodes.map Prod.fst) :
    d.root ∈ d.reachable := by
  obtain ⟨entry, hentry, hroot⟩ := List.mem_map.mp h
  rw [Definition.reachable, Definition.search]
  split
  · next hnone =>
    have hmissing := List.find?_eq_none.mp hnone entry hentry
    simp [hroot] at hmissing
  · exact List.mem_cons_self

/-- There is nothing to warn of about labels that are all different. -/
theorem repeatedLabels_eq_nil {labels : List Text} (h : labels.Nodup) :
    repeatedLabels labels = [] := by
  have hnone : labels.filter (fun label => 1 < labels.count label) = [] := by
    refine List.filter_eq_nil_iff.mpr fun label _ => ?_
    simpa using List.nodup_iff_count_le_one.mp h label
  rw [repeatedLabels, hnone]
  exact List.mergeSort_nil

/-- A filter after the start that takes back what fails, with a target for what passes. -/
def filtered (target : Text) : Board :=
  { nodes := [⟨text "f", text "filter", [(text "nextTrue", .str target)]⟩]
    connections := [⟨startId, text "f", none⟩, ⟨text "f", text "f", some (text "false")⟩] }

/-- The target for what passes is nothing to warn of, whatever it is. -/
theorem warnings_filtered (target : Text) (registry : Option Registry) :
    ((filtered target).check registry).warnings = [] := by
  have hreach : reachWarnings ((filtered target).compile (text "check") (text "Untitled") 1) = [] := by
    have hfound := root_mem_reachable
      (d := (filtered target).compile (text "check") (text "Untitled") 1) List.mem_cons_self
    have hrooted : ((filtered target).compile (text "check") (text "Untitled") 1).isDegenerate =
        false := rfl
    rw [reachWarnings, hrooted]
    refine List.map_eq_nil_iff.mpr (List.filter_eq_nil_iff.mpr fun entry hentry => ?_)
    obtain rfl := List.mem_singleton.mp hentry
    simp only [Bool.not_eq_true', Bool.not_eq_false, List.contains_iff_mem]
    exact hfound
  have hlabels : ((filtered target).authoredLabels (text "f")).Nodup := List.nodup_singleton _
  refine List.map_eq_nil_iff.mpr ?_
  simp only [warnings, List.append_eq_nil_iff]
  refine ⟨⟨⟨rfl, rfl⟩, hreach⟩, List.flatMap_eq_nil_iff.mpr fun n hn => ?_⟩
  obtain rfl := List.mem_singleton.mp hn
  rw [repeatedLabels_eq_nil hlabels, List.map_nil]

/-- A filter that lets pass to itself makes a closed definition. -/
theorem filtered_closed :
    ((filtered (text "f")).check none).warnings = [] ∧
      ((filtered (text "f")).compile (text "d") (text "Untitled") 1).Closed := by
  have hnone := warnings_filtered (text "f") none
  refine ⟨hnone, (closed_of_no_warnings hnone (text "d") (text "Untitled") 1).2.2.mpr ?_⟩
  intro i n hmem e _ he
  obtain ⟨rfl, rfl⟩ := Prod.mk.inj (List.mem_singleton.mp hmem)
  obtain rfl : e = ⟨text "true", text "f"⟩ := List.mem_singleton.mp he
  exact List.mem_singleton_self _

/-- A filter that lets pass to a node that is not there gets no warning and no error, but makes a
definition that is not closed. -/
theorem filtered_not_closed :
    let report := (filtered (text "ghost")).check (some (Registry.empty.withBuiltins []))
    report.warnings = [] ∧ report.errors = [] ∧
      ¬((filtered (text "ghost")).compile (text "d") (text "Untitled") 1).Closed := by
  refine ⟨warnings_filtered _ _, by decide +kernel, fun hclosed => ?_⟩
  have hghost := hclosed.edges (text "f") _ (.head _) ⟨text "true", text "ghost"⟩ (.tail _ (.head _))
  exact absurd (List.mem_singleton.mp hghost) (by decide)

end Board

end Showrunner
