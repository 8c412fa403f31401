import Showrunner.Definition.Basic

/-!
# Reachable nodes

The search starts at the root and follows branches to nodes that exist. A node that is found is
taken from those that remain, so the search ends although branches may lead in circles.
-/

namespace Showrunner

namespace Definition

/-- The nodes other than the one with an id. -/
def others (nodes : List (Text × Node)) (id : Text) : List (Text × Node) :=
  nodes.filter (·.1 ≠ id)

theorem others_length_lt {nodes : List (Text × Node)} {id : Text} {entry : Text × Node}
    (found : nodes.find? (·.1 = id) = some entry) : (others nodes id).length < nodes.length := by
  refine List.length_filter_lt_length_iff_exists.mpr ⟨entry, List.mem_of_find?_eq_some found, ?_⟩
  simpa using List.find?_some found

/-- The ids found among the remaining nodes from the pending ids. -/
def search (remaining : List (Text × Node)) (pending : List Text) : List Text :=
  match pending with
  | [] => []
  | id :: pending =>
      match _found : remaining.find? (·.1 = id) with
      | none => search remaining pending
      | some (_, n) => id :: search (others remaining id) (pending ++ n.edges.map (·.target))
termination_by (remaining.length, pending.length)
decreasing_by
  · exact Prod.Lex.right _ (by simp)
  · exact Prod.Lex.left _ _ (others_length_lt _found)

/-- The ids that the root leads to. -/
def reachable (d : Definition) : List Text := search d.nodes [d.root]

end Definition

end Showrunner
