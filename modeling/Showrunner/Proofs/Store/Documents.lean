import Showrunner.Proofs.Json.Values
import Showrunner.Proofs.Validation.Verdicts
import Showrunner.Store.Workflows

/-!
# Boards and definitions as documents

A board or a definition that is written as a document is read from it again, but without the numbers that are
not finite in the configurations of its nodes: these are written as nothing. What was read is written as what
it was read from. A document can hold a written board if it can hold the configurations, three levels deeper,
and a written definition too, if its nodes have distinct ids and its version has few digits.
-/

namespace Showrunner

namespace Reader

variable {α β : Type} {r : Reader α}

/-- Fields that may have any values are read as they are. -/
theorem mapping_any (fields : Fields) : mapping any (.obj fields) = .valid fields :=
  mapping_eq_valid.mpr ⟨fields, rfl, rfl⟩

/-- What is read as fields with any values is an object with these fields. -/
theorem eq_obj_of_mapping_any {v : Json} {fields : Fields} (h : mapping any v = .valid fields) :
    v = .obj fields := by
  obtain ⟨found, rfl, -⟩ := mapping_eq_valid.mp h
  cases (mapping_any found).symm.trans h
  rfl

/-- Items that are written and read back one by one are so as a list. -/
theorem list_map {dump : β → Json} {f : β → α} (h : ∀ b, r (dump b) = .valid (f b)) (items : List β) :
    list r (.arr (items.map dump)) = .valid (items.map f) := by
  refine list_eq_valid.mpr ⟨_, rfl, ?_⟩
  rw [List.map_map, List.map_map]
  exact List.map_congr_left fun b _ => h b

/-- Written texts are read as the texts. -/
theorem list_str (texts : List Text) : list string (.arr (texts.map .str)) = .valid texts := by
  have hstring : ∀ t, string (.str t) = .valid t := fun _ => rfl
  rw [list_map hstring, List.map_id']

/-- Values that are written and read back one by one are so as the fields of an object. -/
theorem mapping_map {dump : β → Json} {f : β → α} (h : ∀ b, r (dump b) = .valid (f b))
    (entries : List (Text × β)) :
    mapping r (.obj (entries.map fun entry => (entry.1, dump entry.2))) =
      .valid (entries.map fun entry => (entry.1, f entry.2)) := by
  refine mapping_eq_valid.mpr ⟨_, rfl, ?_⟩
  rw [List.map_map, List.map_map]
  exact List.map_congr_left fun entry _ => congrArg (Prod.mk entry.1) (h entry.2)

/-- A text that may be missing is read back. -/
theorem nullable_ofText? (t : Option Text) : nullable string (Json.ofText? t) = .valid t := by
  cases t <;> rfl

end Reader

open Reader

namespace Board

/-- A written node is read as the node, without numbers that are not finite. -/
theorem Node.read_dump (n : Node) :
    Node.read .value (n.dump "action_kind") = .valid { n with config := Json.finiteFields n.config } := by
  change Node.mk <$> Verdict.valid n.id <*> Verdict.valid n.kind <*>
    (mapping any (.obj (Json.finiteFields n.config))).under _ = _
  rw [mapping_any]
  rfl

/-- A written connection is read as the connection. -/
theorem Connection.read_dump (c : Connection) : Connection.read .value c.dump = .valid c := by
  change Connection.mk <$> Verdict.valid c.source <*> Verdict.valid c.target <*>
    (nullable string (Json.ofText? c.label)).under _ = _
  rw [nullable_ofText?]
  rfl

/-- A written board is read as the board, without numbers that are not finite. -/
theorem read_dump (b : Board) : read .value (b.dump "action_kind") = .valid b.settled := by
  change Board.mk <$> (list (Node.read .value) (.arr (b.nodes.map (Node.dump "action_kind")))).under _ <*>
    (list (Connection.read .value) (.arr (b.connections.map Connection.dump))).under _ = _
  rw [list_map Node.read_dump, list_map Connection.read_dump, List.map_id']
  rfl

/-- A board is written as it comes back from a document. -/
@[simp] theorem dump_settled (b : Board) (kindName : String) : b.settled.dump kindName = b.dump kindName := by
  simp [dump, settled, Node.dump, Function.comp_def]

/-- The configurations of a board's nodes can be held by documents. -/
def Regular (most : Nat) (b : Board) : Prop := ∀ n ∈ b.nodes, (Json.obj n.config).Regular most

/-- A written connection is regular. -/
theorem Connection.regular_dump (c : Connection) (most : Nat) : c.dump.Regular (most + 1) := by
  refine Json.regular_obj (by simp only [List.map_cons, List.map_nil]; decide) ?_
  simp only [List.forall_mem_cons]
  exact ⟨.str trivial, .str trivial, Json.regular_ofText? c.label, fun _ h => (nomatch h)⟩

/-- A written board is regular, its configurations being so. -/
theorem Regular.dump {b : Board} {most : Nat} (h : b.Regular most) :
    (b.dump "action_kind").Regular (most + 3) := by
  have hnode : ∀ n ∈ b.nodes, (n.dump "action_kind").Regular (most + 1) := by
    intro n hn
    refine Json.regular_obj (by simp only [List.map_cons, List.map_nil]; decide) ?_
    simp only [List.forall_mem_cons]
    exact ⟨.str trivial, .str trivial, (h n hn).finiteOnly, fun _ h => (nomatch h)⟩
  refine Json.regular_obj (by simp only [List.map_cons, List.map_nil]; decide) ?_
  simp only [List.forall_mem_cons]
  exact ⟨.arr (List.forall_mem_map.mpr hnode),
    .arr (List.forall_mem_map.mpr fun c _ => c.regular_dump most), fun _ h => (nomatch h)⟩

end Board

namespace Definition

/-- A written branch is read as the branch. -/
theorem Edge.read_dump (e : Edge) : Edge.read .value e.dump = .valid e := rfl

/-- A written node is read as the node, without numbers that are not finite. -/
theorem Node.read_dump (n : Node) :
    Node.read .value n.dump = .valid { n with cfg := Json.finiteFields n.cfg } := by
  change Node.mk <$> Verdict.valid n.id <*> Verdict.valid n.kind <*>
    (mapping any (.obj (Json.finiteFields n.cfg))).under _ <*>
    (nullable string (Json.ofText? n.next)).under _ <*>
    (list string (.arr (n.prev.map .str))).under _ <*>
    (list (Edge.read .value) (.arr (n.edges.map Edge.dump))).under _ <*>
    (nullable string (Json.ofText? n.sub)).under _ = _
  rw [mapping_any, nullable_ofText?, nullable_ofText?, list_str, list_map Edge.read_dump,
    List.map_id']
  rfl

/-- A written definition without the start node is read as the definition, without numbers that are not
finite. -/
theorem read_dump {d : Definition} (h : startId ∉ d.nodes.map Prod.fst) :
    read .value d.dump = .valid d.settled := by
  have hnodes : mapping (Node.read .value) (.obj (d.nodes.map fun entry => (entry.1, entry.2.dump))) =
      .valid d.settled.nodes := mapping_map Node.read_dump d.nodes
  have hstart : d.settled.node? startId = none := by
    rw [node?, List.lookup_eq_none_iff]
    refine List.forall_mem_map.mpr fun entry hentry => bne_iff_ne.mpr fun hsame => h ?_
    have hname : entry.1 ∈ d.nodes.map Prod.fst := List.mem_map_of_mem hentry
    rwa [hsame]
  change Verdict.andThen (Definition.mk <$> Verdict.valid d.id <*> Verdict.valid d.name <*>
    Verdict.valid d.version <*> Verdict.valid d.root <*> (mapping (Node.read .value)
      (.obj (d.nodes.map fun entry => (entry.1, entry.2.dump)))).under _) _ = _
  rw [hnodes]
  change (if (d.settled.node? startId).isSome then _ else _) = _
  rw [hstart]
  rfl

/-- A definition is written as it comes back from a document. -/
@[simp] theorem dump_settled (d : Definition) : d.settled.dump = d.dump := by
  simp [dump, settled, Node.dump, Function.comp_def]

/-- A definition can be held by a document: its nodes have distinct ids, and so can their configurations. -/
structure Regular (most : Nat) (d : Definition) : Prop where
  names : (d.nodes.map Prod.fst).Nodup
  configs : ∀ entry ∈ d.nodes, (Json.obj entry.2.cfg).Regular most

/-- A written branch is regular. -/
theorem Edge.regular_dump (e : Edge) (most : Nat) : e.dump.Regular (most + 1) := by
  refine Json.regular_obj (by simp only [List.map_cons, List.map_nil]; decide) ?_
  simp only [List.forall_mem_cons]
  exact ⟨.str trivial, .str trivial, fun _ h => (nomatch h)⟩

/-- A written node is regular, its configuration being so. -/
theorem Node.regular_dump {n : Node} {most : Nat} (h : (Json.obj n.cfg).Regular (most + 2)) :
    n.dump.Regular (most + 3) := by
  refine Json.regular_obj (by simp only [List.map_cons, List.map_nil]; decide) ?_
  simp only [List.forall_mem_cons]
  exact ⟨.str trivial, .str trivial, h.finiteOnly, Json.regular_ofText? n.next,
    Json.regular_texts n.prev, .arr (List.forall_mem_map.mpr fun e _ => e.regular_dump most),
    Json.regular_ofText? n.sub, fun _ h => (nomatch h)⟩

/-- A written definition is regular. -/
theorem Regular.dump {d : Definition} {most : Nat} (h : d.Regular (most + 2))
    (hversion : (Nat.toDigits 10 d.version.natAbs).length ≤ Integer.digitLimit) :
    d.dump.Regular (most + 5) := by
  have hnodes : (Json.obj (d.nodes.map fun entry => (entry.1, entry.2.dump))).Regular (most + 4) := by
    refine Json.regular_obj ?_ (List.forall_mem_map.mpr fun entry hentry => ?_)
    · rw [List.map_map]
      exact h.names
    · exact Node.regular_dump (h.configs entry hentry)
  refine Json.regular_obj (by simp only [List.map_cons, List.map_nil]; decide) ?_
  simp only [List.forall_mem_cons]
  refine ⟨.str trivial, .str trivial, .int fun most hmost => ?_, .str trivial, hnodes, fun _ h => (nomatch h)⟩
  cases hmost
  exact hversion

end Definition

end Showrunner
