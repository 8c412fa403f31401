import Showrunner.Proofs.Board.Drawing

/-!
# Connections into the start node

A connection into the start node becomes a branch like any other. It is without effect where the
node that it leaves does not run, and at the start node where another connection comes first. On
boards without further connections into the start node all of them are without effect; these are the
boards whose compiled form never leads to the start node.
-/

namespace Showrunner

namespace Board

/-- The board without its connections into the start node. -/
def withoutReturns (b : Board) : Board :=
  { b with connections := b.connections.filter (·.target ≠ startId) }

/-- Neither does a node that runs return to the start node, nor does the start node lead to itself. -/
structure Forward (b : Board) : Prop where
  root : ∀ c, b.connections.find? (·.source = startId) = some c → c.target ≠ startId
  nodes : ∀ i ∈ b.nodes.map Node.id, i ≠ startId →
    ∀ c ∈ b.connections, c.source = i → c.target ≠ startId

/-- Looking for an element that is kept by a filter finds the same in the filtered list. -/
theorem find?_filter_of_kept {α : Type} {p q : α → Bool} {as : List α}
    (h : ∀ a, as.find? p = some a → q a = true) : (as.filter q).find? p = as.find? p := by
  induction as with
  | nil => rfl
  | cons a rest ih =>
    by_cases hp : p a = true
    · have hq : q a = true := h a (List.find?_cons_of_pos hp)
      rw [List.filter_cons_of_pos hq, List.find?_cons_of_pos hp, List.find?_cons_of_pos hp]
    · have hrest := ih fun a' ha' => h a' ((List.find?_cons_of_neg hp).trans ha')
      rw [List.find?_cons_of_neg hp, ← hrest]
      by_cases hq : q a = true
      · rw [List.filter_cons_of_pos hq, List.find?_cons_of_neg hp]
      · rw [List.filter_cons_of_neg hq]

/-- Filtering keeps what a narrower filter keeps. -/
theorem filter_filter_of_kept {α : Type} {p q : α → Bool} {as : List α}
    (h : ∀ a ∈ as, p a = true → q a = true) : (as.filter q).filter p = as.filter p := by
  rw [List.filter_filter]
  refine List.filter_congr fun a ha => ?_
  cases hp : p a with
  | false => rfl
  | true => rw [h a ha hp, Bool.true_and]

/-- A node that does not return to the start has the same branches without such connections. -/
theorem branches_withoutReturns {b : Board} {id : Text}
    (h : ∀ c ∈ b.connections, c.source = id → c.target ≠ startId) :
    b.withoutReturns.branches id = b.branches id := by
  rw [branches, branches, leaving, leaving, withoutReturns, filter_filter_of_kept fun c hc hsource =>
    decide_eq_true (h c hc (of_decide_eq_true hsource))]

/-- No node but the start is entered by connections into the start node. -/
theorem entering_withoutReturns (b : Board) {id : Text} (h : id ≠ startId) :
    b.withoutReturns.entering id = b.entering id := by
  rw [entering, entering, withoutReturns, filter_filter_of_kept fun c _ htarget =>
    decide_eq_true (of_decide_eq_true htarget ▸ h)]

/-- A node that does not return to the start compiles to the same without such connections. -/
theorem compileNode_withoutReturns {b : Board} {n : Node} (hn : n.id ≠ startId)
    (h : ∀ c ∈ b.connections, c.source = n.id → c.target ≠ startId) :
    b.withoutReturns.compileNode n = b.compileNode n := by
  rw [compileNode, compileNode, branches_withoutReturns h, entering_withoutReturns b hn]

/-- The root is the same without connections into the start node, unless it is the start node. -/
theorem root_withoutReturns {b : Board}
    (h : ∀ c, b.connections.find? (·.source = startId) = some c → c.target ≠ startId)
    (id name : Text) (version : Int) :
    (b.withoutReturns.compile id name version).root = (b.compile id name version).root := by
  rw [root_compile, root_compile, withoutReturns,
    find?_filter_of_kept fun c hc => decide_eq_true (h c hc)]

/-- A board that does not return to the start compiles to the same without such connections. -/
theorem Forward.compile_eq {b : Board} (h : b.Forward) (id name : Text) (version : Int) :
    b.withoutReturns.compile id name version = b.compile id name version := by
  have hnodes : (b.withoutReturns.compile id name version).nodes =
      (b.compile id name version).nodes := by
    refine List.map_congr_left fun n hn => ?_
    obtain ⟨hfirst, hstart⟩ := List.mem_filter.mp hn
    have hid : n.id ≠ startId := of_decide_eq_true hstart
    have hauthored : n.id ∈ b.nodes.map Node.id := List.mem_map_of_mem (mem_firstsBy hfirst).1
    rw [compileNode_withoutReturns hid (h.nodes n.id hauthored hid)]
  exact congrArg₂ (Definition.mk id name version) (root_withoutReturns h.root id name version) hnodes

/-- The root is the start node if the first connection from the start node leads there. -/
theorem root_eq_startId {b : Board} {id name : Text} {version : Int} :
    (b.compile id name version).root = startId ↔
      ∃ c, b.connections.find? (·.source = startId) = some c ∧ c.target = startId := by
  rw [root_compile]
  have hnamed : ([] : Text) ≠ startId := by decide
  cases b.connections.find? (·.source = startId) with
  | none => simp [hnamed]
  | some c => simp

/-- Connections into the start node are without effect on a board on which no node returns to the
start. These are the boards whose compiled form never names the start node as root, as next node or
in a branch that is drawn. -/
theorem compile_withoutReturns (b : Board) (id name : Text) (version : Int) :
    let d := b.compile id name version
    (b.Forward → b.withoutReturns.compile id name version = d) ∧
    (b.Forward ↔ d.root ≠ startId ∧
      ∀ i n, (i, n) ∈ d.nodes → n.next ≠ some startId ∧ ∀ e ∈ b.branches i, e.target ≠ startId) := by
  intro d
  refine ⟨fun h => h.compile_eq id name version, fun h => ⟨?_, fun i n hmem => ?_⟩,
    fun ⟨hroot, hnodes⟩ => ⟨fun c hc htarget => ?_, fun i hi hstart c hc hsource htarget => ?_⟩⟩
  · intro hroot
    obtain ⟨c, hc, htarget⟩ := root_eq_startId.mp hroot
    exact h.root c hc htarget
  · have hid := mem_map_fst_compile.mp (List.mem_map_of_mem (f := Prod.fst) hmem)
    have hbranches : ∀ e ∈ b.branches i, e.target ≠ startId := fun e he htarget => by
      obtain ⟨c, hc, hsource, hto⟩ := mem_map_target_branches.mp (List.mem_map_of_mem he)
      exact h.nodes i hid.1 hid.2 c hc hsource (hto.trans htarget)
    refine ⟨fun hnext => ?_, hbranches⟩
    obtain ⟨e, he, htarget⟩ := exists_branch_of_next hmem hnext
    exact hbranches e he htarget
  · exact hroot (root_eq_startId.mpr ⟨c, hc, htarget⟩)
  · -- a connection back to the start shows as a branch of the node that it leaves
    obtain ⟨⟨_, n⟩, hmem, rfl⟩ := List.mem_map.mp (mem_map_fst_compile.mpr ⟨hi, hstart⟩)
    obtain ⟨e, he, hto⟩ := List.mem_map.mp (mem_map_target_branches.mpr ⟨c, hc, hsource, htarget⟩)
    exact (hnodes _ n hmem).2 e he hto

/-- A node that the start node leads to and that leads back to it. -/
def circle : Board :=
  { nodes := [⟨text "a", text "action", []⟩]
    connections := [⟨startId, text "a", none⟩, ⟨text "a", startId, none⟩] }

/-- The way back becomes a branch and the next node, and both go when the connection is removed. -/
theorem circle_returns :
    let d := circle.compile (text "d") (text "Untitled") 1
    let without := circle.withoutReturns.compile (text "d") (text "Untitled") 1
    d.nodes.map (fun (_, n) => (n.edges, n.next)) =
      [([⟨text "branch-0", startId⟩], some startId)] ∧
    without.nodes.map (fun (_, n) => (n.edges, n.next)) = [([], none)] ∧ without ≠ d := by
  intro d without
  have hback : d.nodes.map (fun (_, n) => (n.edges, n.next)) =
      [([⟨text "branch-0", startId⟩], some startId)] := by decide
  have hgone : without.nodes.map (fun (_, n) => (n.edges, n.next)) = [([], none)] := by decide
  refine ⟨hback, hgone, fun heq => ?_⟩
  rw [heq, hback] at hgone
  cases hgone

end Board

end Showrunner
