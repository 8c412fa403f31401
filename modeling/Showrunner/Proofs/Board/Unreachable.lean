import Showrunner.Proofs.Board.Warnings
import Showrunner.Proofs.Definition.Search

/-!
# Nodes that nothing leads to

A board whose definition has a root is searched from there, and the check warns of each node that the search
has not found: these are the nodes to which no path of edges leads from the root. The warnings come in the
order of the nodes, one for each, and no other warning is told in their words.
-/

namespace Showrunner

/-- The nodes of a definition to which no path leads from the root, in order. -/
def Definition.unreached (d : Definition) : List Text :=
  (d.nodes.map Prod.fst).filter fun i => ¬d.Reaches i

namespace Board

variable {b : Board} {id name : Text} {version : Int}

/-- The nodes that the search has not found are warned of. -/
theorem reachWarnings_eq {d : Definition} (h : d.root ≠ []) :
    reachWarnings d = d.unreached.map .unreachable := by
  have hrooted : d.isDegenerate = false := by simpa [Definition.isDegenerate] using h
  have hlost : ∀ i, (!d.reachable.contains i) = decide ¬d.Reaches i := fun i => by
    rw [Bool.eq_iff_iff, decide_eq_true_eq, Bool.not_eq_true', Bool.eq_false_iff, Ne,
      List.contains_iff_mem, Definition.mem_reachable]
  simp only [reachWarnings, hrooted, hlost, Definition.unreached, List.filter_map, List.map_map]
  rfl

/-- The other warnings of a report are not told in the words for a node that nothing leads to. -/
theorem unreachable_not_mem (b : Board) (i : Text) :
    .unreachable i ∉ b.drawingWarnings ∧ .unreachable i ∉ b.labelWarnings := by
  refine ⟨fun h => absurd (opening_of_mem_drawingWarnings h) (by decide : ¬5 < 4), fun h => ?_⟩
  obtain ⟨n, -, hn⟩ := List.mem_flatMap.mp h
  obtain ⟨label, -, hlabel⟩ := List.mem_map.mp hn
  cases hlabel

/-- The nodes of a compiled board have distinct ids. -/
theorem nodup_compile (b : Board) (id name : Text) (version : Int) :
    ((b.compile id name version).nodes.map Prod.fst).Nodup := by
  have hids : (b.compile id name version).nodes.map Prod.fst = b.runningNodes.map Node.id := List.map_map
  rw [hids]
  exact (nodup_firstsBy Node.id [] b.nodes).sublist (List.filter_sublist.map _)

/-- On a board whose definition has a root the search ends, at the latest after one round for the root and one
for each edge, and what it has found are the nodes to which a path of edges leads from the root. The other
nodes are what the check warns of in the words for nodes that nothing leads to, each once and in order. -/
theorem unreached_reported (h : (b.compile id name version).root ≠ []) (registry : Option Registry) :
    let d := b.compile id name version
    (∀ rounds, Definition.edgeCount d.nodes + 1 ≤ rounds →
      d.round^[rounds] d.start = ⟨d.reachable, []⟩) ∧
    (∀ i, i ∈ d.reachable ↔ d.Reaches i) ∧
    d.unreached.Nodup ∧
    ∃ before after,
      (b.check registry).warnings =
        before ++ d.unreached.map (fun i => (Warning.unreachable i).message) ++ after ∧
      ∀ i, (Warning.unreachable i).message ∉ before ∧ (Warning.unreachable i).message ∉ after := by
  intro d
  refine ⟨fun rounds => d.rounds_start, fun i => Definition.mem_reachable,
    (b.nodup_compile id name version).filter _,
    b.drawingWarnings.map Warning.message, b.labelWarnings.map Warning.message, ?_, fun i => ?_⟩
  · change b.warnings.map Warning.message = _
    rw [b.warnings_eq id name version, reachWarnings_eq h, List.map_append, List.map_append, List.map_map]
    rfl
  · rw [List.mem_map_of_injective Warning.message_injective,
      List.mem_map_of_injective Warning.message_injective]
    exact b.unreachable_not_mem i

/-- A filter in a circle with the node that it takes back to, with a branch to a node that is not there, and a
node that only leads there. -/
def winding : Board :=
  { nodes := [⟨text "a", text "filter", [(text "nextTrue", .str (text "ghost"))]⟩,
      ⟨text "b", text "action", []⟩, ⟨text "c", text "action", []⟩]
    connections := [⟨startId, text "a", none⟩, ⟨text "a", text "b", some (text "false")⟩,
      ⟨text "b", text "a", none⟩, ⟨text "c", text "b", none⟩, ⟨text "c", text "c", none⟩] }

/-- Of the node that only leads into the circle it is told that nothing leads to it, and of no other. -/
theorem winding_reported :
    (winding.compile (text "d") (text "Untitled") 1).root ≠ [] ∧
    ∃ before after,
      (winding.check (some (Registry.empty.withBuiltins []))).warnings =
        before ++ [(Warning.unreachable (text "c")).message] ++ after ∧
      ∀ i, (Warning.unreachable i).message ∉ before ∧ (Warning.unreachable i).message ∉ after := by
  have hroot : (winding.compile (text "d") (text "Untitled") 1).root ≠ [] := by decide
  obtain ⟨hends, hfound, -, hreported⟩ := unreached_reported hroot (some (Registry.empty.withBuiltins []))
  have hsearch := congrArg Definition.Search.found (hends 7 (by decide))
  have hunreached : (winding.compile (text "d") (text "Untitled") 1).unreached = [text "c"] := by
    have hreachable : (winding.compile (text "d") (text "Untitled") 1).reachable = [text "a", text "b"] :=
      hsearch.symm.trans (by decide)
    simp only [Definition.unreached, ← hfound, hreachable]
    decide
  rw [hunreached] at hreported
  exact ⟨hroot, hreported⟩

end Board

end Showrunner
