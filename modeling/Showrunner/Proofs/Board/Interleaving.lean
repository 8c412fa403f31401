import Mathlib.Data.List.Induction
import Mathlib.Logic.Function.Basic
import Showrunner.Proofs.Board.Drawing

/-!
# Wiring in one pass

The branches of all nodes can be made in one pass over the connections, with one record of the
connections seen, one table of positions, one of branches and one of predecessors for all nodes
together. The invariant of the pass says that what is under the id of a node depends on that node's
own connections only. The pass therefore gives the branches and the predecessors that a board is
compiled with, and two boards whose connections are differently interleaved are compiled to the
same branches, and to the same predecessors in perhaps another order.
-/

namespace Showrunner

namespace Board

/-- Which number is the first free one depends on which labels are taken, not on their order. -/
theorem firstFree_congr {taken taken' : List Text} (h : ∀ label, label ∈ taken ↔ label ∈ taken')
    (label : Text) (n tries : Nat) :
    firstFree label taken n tries = firstFree label taken' n tries := by
  induction tries generalizing n with
  | zero => rfl
  | succ tries ih => simp only [firstFree, h, ih]

/-- A free label depends on which labels are taken, not on their order. -/
theorem freeLabel_perm {taken taken' : List Text} (h : taken.Perm taken') (label : Text) (n : Nat) :
    freeLabel label n taken = freeLabel label n taken' := by
  simp only [freeLabel, h.mem_iff, h.length_eq, firstFree_congr fun _ => h.mem_iff]

/-- The branch of one more connection gets a label that is free beside those of the others. -/
theorem branchesFrom_concat (position : Nat) (taken : List Text) (cs : List Connection)
    (c : Connection) :
    branchesFrom position taken (cs ++ [c]) =
      let edges := branchesFrom position taken cs
      edges ++ [⟨freeLabel (c.authoredLabel (position + cs.length)) (position + cs.length)
        (edges.map (·.label) ++ taken), c.target⟩] := by
  induction cs generalizing position taken with
  | nil => rfl
  | cons d rest ih =>
    simp only [List.cons_append, branchesFrom, ih, List.length_cons, List.map_cons,
      Nat.add_right_comm position 1, Nat.add_assoc position]
    -- The label that was taken first stands before the others here and behind them there.
    rw [freeLabel_perm List.perm_middle]

/-! ## The pass -/

/-- What the pass over the connections keeps for all nodes together. -/
structure Wiring where
  seen : List Connection
  authored : Text → Nat
  outgoing : Text → List Definition.Edge
  incoming : Text → List Text

namespace Wiring

/-- Nothing is wired. -/
def empty : Wiring := ⟨[], fun _ => 0, fun _ => [], fun _ => []⟩

/-- Wire a connection, unless it was seen before. -/
def connect (w : Wiring) (c : Connection) : Wiring :=
  if c ∈ w.seen then w
  else
    let position := w.authored c.source
    let edges := w.outgoing c.source
    let label := freeLabel (c.authoredLabel position) position (edges.map (·.label))
    let sources := w.incoming c.target
    { seen := c :: w.seen
      authored := Function.update w.authored c.source (position + 1)
      outgoing := Function.update w.outgoing c.source (edges ++ [⟨label, c.target⟩])
      incoming :=
        if sources.contains c.source then w.incoming
        else Function.update w.incoming c.target (sources ++ [c.source]) }

/-- Under each id there is what the connections of that node alone give. -/
structure Follows (w : Wiring) (cs : List Connection) : Prop where
  seen : ∀ c, c ∈ w.seen ↔ c ∈ cs
  authored : ∀ id, w.authored id = (firsts (cs.filter (·.source = id))).length
  outgoing : ∀ id, w.outgoing id = branchesFrom 0 [] (firsts (cs.filter (·.source = id)))
  incoming : ∀ id, w.incoming id = firsts ((cs.filter (·.target = id)).map (·.source))

/-- One more connection is kept for its source alone, if it is new. -/
theorem firsts_leaving_concat (cs : List Connection) (c : Connection) (id : Text) :
    firsts ((cs ++ [c]).filter (·.source = id)) =
      if c.source = id ∧ c ∉ cs then firsts (cs.filter (·.source = id)) ++ [c]
      else firsts (cs.filter (·.source = id)) := by
  rw [List.filter_append, List.filter_singleton]
  by_cases hsource : c.source = id
  · by_cases hseen : c ∈ cs <;> simp [hsource, hseen, firsts_concat]
  · simp [hsource]

/-- The source of one more connection is kept for its target alone, if it is new there. -/
theorem firsts_entering_concat (cs : List Connection) (c : Connection) (id : Text) :
    firsts (((cs ++ [c]).filter (·.target = id)).map (·.source)) =
      let sources := firsts ((cs.filter (·.target = id)).map (·.source))
      if c.target = id ∧ c.source ∉ sources then sources ++ [c.source] else sources := by
  rw [List.filter_append, List.filter_singleton]
  by_cases htarget : c.target = id
  · simp only [htarget, decide_true, cond_true, List.map_append, List.map_singleton, firsts_concat,
      mem_firsts, true_and, ite_not]
    congr
  · simp [htarget]

variable {w : Wiring} {cs : List Connection} {c : Connection}

/-- A connection that is drawn once more changes nothing. -/
theorem Follows.again (h : w.Follows cs) (hold : c ∈ cs) : w.Follows (cs ++ [c]) where
  seen d := by
    have hd : d = c → d ∈ cs := fun heq => heq ▸ hold
    simpa [h.seen d] using hd
  authored id := by rw [h.authored, firsts_leaving_concat, if_neg fun hnew => hnew.2 hold]
  outgoing id := by rw [h.outgoing, firsts_leaving_concat, if_neg fun hnew => hnew.2 hold]
  incoming id := by
    have hsource : c.source ∈ firsts ((cs.filter (·.target = c.target)).map (·.source)) :=
      mem_firsts.mpr (List.mem_map_of_mem (List.mem_filter.mpr ⟨hold, by simp⟩))
    rw [h.incoming, firsts_entering_concat, if_neg]
    rintro ⟨rfl, hnew⟩
    exact hnew hsource

/-- Wiring a connection keeps the invariant. -/
theorem Follows.connect (h : w.Follows cs) (c : Connection) : (w.connect c).Follows (cs ++ [c]) := by
  unfold Wiring.connect
  by_cases hseen : c ∈ w.seen
  · rw [if_pos hseen]
    exact h.again ((h.seen c).mp hseen)
  have hnew : c ∉ cs := fun hold => hseen ((h.seen c).mpr hold)
  rw [if_neg hseen]
  refine ⟨fun d => ?_, fun id => ?_, fun id => ?_, fun id => ?_⟩
  · simp [h.seen d, or_comm]
  · rw [firsts_leaving_concat]
    by_cases hsource : c.source = id
    · simp [hsource, hnew, h.authored]
    · simp [Function.update_of_ne (Ne.symm hsource), hsource, h.authored]
  · rw [firsts_leaving_concat]
    by_cases hsource : c.source = id
    · simp [hsource, hnew, branchesFrom_concat, h.authored, h.outgoing]
    · simp [Function.update_of_ne (Ne.symm hsource), hsource, h.outgoing]
  · rw [firsts_entering_concat]
    by_cases htarget : c.target = id
    · subst htarget
      simp only [h.incoming, List.contains_iff_mem, true_and, ite_not]
      split
      · exact h.incoming _
      · exact Function.update_self ..
    · rw [if_neg fun hboth => htarget hboth.1]
      dsimp only
      split
      · exact h.incoming id
      · rw [Function.update_of_ne (Ne.symm htarget), h.incoming]

end Wiring

/-- Wire connections in one pass. -/
def wire (cs : List Connection) : Wiring := cs.foldl Wiring.connect .empty

/-- The pass keeps its invariant to the end. -/
theorem follows_wire (cs : List Connection) : (wire cs).Follows cs := by
  induction cs using List.reverseRecOn with
  | nil => exact ⟨fun _ => Iff.rfl, fun _ => rfl, fun _ => rfl, fun _ => rfl⟩
  | append_singleton cs c ih =>
    have hstep : wire (cs ++ [c]) = (wire cs).connect c := List.foldl_append
    exact hstep ▸ ih.connect c

/-- The pass gives the branches that the nodes of a board are compiled with. -/
theorem outgoing_wire (b : Board) (id : Text) : (wire b.connections).outgoing id = b.branches id :=
  (follows_wire b.connections).outgoing id

/-- The pass gives the predecessors that the nodes of a board are compiled with. -/
theorem incoming_wire (b : Board) (id : Text) : (wire b.connections).incoming id = b.entering id :=
  (follows_wire b.connections).incoming id

/-! ## Interleaved connections -/

/-- Two boards have the same nodes, and the same connections in the same order for each source, but the
connections of different sources may be interleaved differently. -/
structure Interleaves (b b' : Board) : Prop where
  nodes : b.nodes = b'.nodes
  leaving : ∀ id, b.connections.filter (·.source = id) = b'.connections.filter (·.source = id)

/-- Neighbouring connections of different sources may trade places. -/
theorem interleaves_swap {c d : Connection} (h : c.source ≠ d.source) (nodes : List Node)
    (before after : List Connection) :
    Interleaves ⟨nodes, before ++ c :: d :: after⟩ ⟨nodes, before ++ d :: c :: after⟩ where
  nodes := rfl
  leaving id := by
    by_cases hc : c.source = id
    · have hd : d.source ≠ id := fun hd => h (hc.trans hd.symm)
      simp [hc, hd]
    · simp [List.filter_cons, hc]

section

variable {b b' : Board}

/-- Interleaving neither adds connections nor drops any. -/
theorem Interleaves.mem_connections (h : b.Interleaves b') (c : Connection) :
    c ∈ b.connections ↔ c ∈ b'.connections := by
  have hsame : c ∈ b.connections.filter (·.source = c.source) ↔
      c ∈ b'.connections.filter (·.source = c.source) := by rw [h.leaving]
  simpa only [List.mem_filter, decide_true, and_true] using hsame

/-- A node of an interleaved board has the same branches. -/
theorem Interleaves.branches_eq (h : b.Interleaves b') (id : Text) : b.branches id = b'.branches id := by
  rw [branches, branches, Board.leaving, Board.leaving, h.leaving]

/-- A node of an interleaved board has the same predecessors in some order. -/
theorem Interleaves.entering_perm (h : b.Interleaves b') (id : Text) :
    (b.entering id).Perm (b'.entering id) := by
  refine (List.perm_ext_iff_of_nodup (nodup_firsts _) (nodup_firsts _)).mpr fun source => ?_
  simp only [mem_firsts, List.mem_map, List.mem_filter, h.mem_connections]

/-- Two nodes are the same but for the order of their predecessors. -/
structure SameWired (n n' : Definition.Node) : Prop where
  id : n.id = n'.id
  kind : n.kind = n'.kind
  sub : n.sub = n'.sub
  cfg : n.cfg = n'.cfg
  next : n.next = n'.next
  edges : n.edges = n'.edges
  prev : n.prev.Perm n'.prev

/-- A node is compiled the same in an interleaved board. -/
theorem Interleaves.sameWired (h : b.Interleaves b') (n : Node) :
    SameWired (b.compileNode n) (b'.compileNode n) where
  id := rfl
  kind := rfl
  sub := rfl
  cfg := rfl
  next := by simp only [compileNode, h.branches_eq]
  edges := by simp only [compileNode, h.branches_eq]
  prev := h.entering_perm n.id

/-- How the connections of different sources are interleaved does not matter. The pass over them wires
each node to the same branches, with the same labels, and to the same predecessors in some order; and
the compiled boards have the same root and the same nodes in the same order, but for the order of
their predecessors. -/
theorem compile_interleaved (h : b.Interleaves b') (id id' name name' : Text) (version version' : Int) :
    (∀ i, (wire b.connections).outgoing i = (wire b'.connections).outgoing i ∧
      ((wire b.connections).incoming i).Perm ((wire b'.connections).incoming i)) ∧
    (b.compile id name version).root = (b'.compile id' name' version').root ∧
    List.Forall₂ (fun (i, n) (i', n') => i = i' ∧ SameWired n n') (b.compile id name version).nodes
      (b'.compile id' name' version').nodes := by
  refine ⟨fun i => ?_, ?_, ?_⟩
  · simp only [outgoing_wire, incoming_wire]
    exact ⟨h.branches_eq i, h.entering_perm i⟩
  · simp only [compile, h.branches_eq]
  · have hrunning : b.runningNodes = b'.runningNodes := by rw [runningNodes, runningNodes, h.nodes]
    simp only [compile, hrunning, List.forall₂_map_left_iff, List.forall₂_map_right_iff,
      List.forall₂_same, true_and]
    exact fun n _ => h.sameWired n

end

/-- A node with two branches of one label, into a node that another node leads to as well. -/
def braided : Board :=
  { nodes := [⟨text "a", text "webhook-trigger", []⟩, ⟨text "b", text "action", []⟩,
      ⟨text "c", text "action", []⟩]
    connections := [⟨startId, text "a", none⟩, ⟨text "a", text "c", some (text "x")⟩,
      ⟨text "b", text "c", none⟩, ⟨text "a", text "b", some (text "x")⟩] }

/-- The same with the two connections into the last node interleaved the other way. -/
def combed : Board :=
  { braided with
    connections := [⟨startId, text "a", none⟩, ⟨text "b", text "c", none⟩,
      ⟨text "a", text "c", some (text "x")⟩, ⟨text "a", text "b", some (text "x")⟩] }

/-- The node keeps its branches and their labels, and the other has its predecessors the other way
round. -/
theorem braided_wired_alike :
    ((wire braided.connections).outgoing (text "a") = (wire combed.connections).outgoing (text "a") ∧
      braided.branches (text "a") = [⟨text "x", text "c"⟩, ⟨text "x-1", text "b"⟩]) ∧
    (braided.compile (text "d") (text "Braided") 1).root = text "a" ∧
    (combed.compile (text "e") (text "Combed") 2).root = text "a" ∧
    braided.entering (text "c") = [text "a", text "b"] ∧
    combed.entering (text "c") = [text "b", text "a"] := by
  have hswap : braided.Interleaves combed :=
    interleaves_swap (by decide) _ [⟨startId, text "a", none⟩] [⟨text "a", text "b", some (text "x")⟩]
  obtain ⟨hpass, hroot, -⟩ := compile_interleaved hswap (text "d") (text "e") (text "Braided")
    (text "Combed") 1 2
  have hbraided : (braided.compile (text "d") (text "Braided") 1).root = text "a" := by decide
  exact ⟨⟨(hpass (text "a")).1, by decide⟩, hbraided, hroot.symm.trans hbraided, by decide, by decide⟩

end Board

end Showrunner
