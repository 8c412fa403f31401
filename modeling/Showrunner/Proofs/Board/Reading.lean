import Showrunner.Proofs.Board.Drawing
import Showrunner.Proofs.Board.Settling
import Showrunner.Proofs.Store.Documents

/-!
# Boards that are read

A board, a node or a connection is read exactly if each of its fields is. The configurations of a board that
is read are parts of what it is read from, whichever shape its nodes have. So a document can hold them if it
can hold that. What the board is compiled to has the same configurations, under distinct ids of which none is
the start.
-/

namespace Showrunner

/-- A value that is found under a name is one of the fields. -/
theorem Fields.mem_of_get? {fields : Fields} {name : Text} {v : Json}
    (h : fields.get? name = some v) : (name, v) ∈ fields := by
  obtain ⟨before, after, rfl, -⟩ := List.lookup_eq_some_iff.mp h
  simp

/-- The values of a regular object are regular. -/
theorem Json.Regular.of_mem {most : Nat} {fields : Fields} (h : (Json.obj fields).Regular most)
    {field : Text × Json} (hfield : field ∈ fields) : field.2.Regular most := by
  cases h with
  | obj _ _ values => exact (values field hfield).mono (Nat.le_succ _)

/-- The items of a regular list are regular. -/
theorem Json.Regular.of_mem_items {most : Nat} {items : List Json} (h : (Json.arr items).Regular most)
    {v : Json} (hv : v ∈ items) : v.Regular most := by
  cases h with
  | arr hitems => exact (hitems v hv).mono (Nat.le_succ _)

namespace Board

open Reader Verdict

variable {most : Nat} {origin : Origin} {v : Json} {fields : Fields}

/-- A node is read from its fields once it is lifted. -/
theorem Node.read_eq_valid_iff {n : Node} :
    Node.read origin (.obj fields) = .valid n ↔
      required "id" string (liftNode fields) = .valid n.id ∧
        optional ["actionKind", "action_kind"] [] string (liftNode fields) = .valid n.kind ∧
        optional ["config"] [] (mapping any) (liftNode fields) = .valid n.config := by
  simp only [Node.read, record, seq_eq_valid, functor_map_eq_valid]
  constructor
  · rintro ⟨_, config, ⟨_, kind, ⟨id, hid, rfl⟩, hkind, rfl⟩, hconfig, rfl⟩
    exact ⟨hid, hkind, hconfig⟩
  · rintro ⟨hid, hkind, hconfig⟩
    exact ⟨_, n.config, ⟨_, n.kind, ⟨n.id, hid, rfl⟩, hkind, rfl⟩, hconfig, rfl⟩

/-- A connection is read from its fields. -/
theorem Connection.read_eq_valid_iff {c : Connection} :
    Connection.read origin (.obj fields) = .valid c ↔
      required "source" string fields = .valid c.source ∧
        required "target" string fields = .valid c.target ∧
        optional ["label", "sourceHandle"] none (nullable string) fields = .valid c.label := by
  simp only [Connection.read, record, seq_eq_valid, functor_map_eq_valid]
  constructor
  · rintro ⟨_, label, ⟨_, target, ⟨source, hsource, rfl⟩, htarget, rfl⟩, hlabel, rfl⟩
    exact ⟨hsource, htarget, hlabel⟩
  · rintro ⟨hsource, htarget, hlabel⟩
    exact ⟨_, c.label, ⟨_, c.target, ⟨c.source, hsource, rfl⟩, htarget, rfl⟩, hlabel, rfl⟩

/-- A board is read from its fields. -/
theorem read_eq_valid_iff {b : Board} :
    Board.read origin (.obj fields) = .valid b ↔
      optional ["nodes"] [] (list (Node.read origin)) fields = .valid b.nodes ∧
        optional ["connections", "edges"] [] (list (Connection.read origin)) fields =
          .valid b.connections := by
  simp only [Board.read, record, seq_eq_valid, functor_map_eq_valid]
  constructor
  · rintro ⟨_, connections, ⟨nodes, hnodes, rfl⟩, hconnections, rfl⟩
    exact ⟨hnodes, hconnections⟩
  · rintro ⟨hnodes, hconnections⟩
    exact ⟨_, b.connections, ⟨b.nodes, hnodes, rfl⟩, hconnections, rfl⟩

/-- Fields that are added are among the fields that there are then. -/
theorem mem_addAbsent {fields more : Fields} {field : Text × Json}
    (h : field ∈ addAbsent fields more) : field ∈ fields ∨ field ∈ more := by
  refine List.foldlRecOn (motive := fun found => field ∈ found → field ∈ fields ∨ field ∈ more) more _
    .inl (fun found hfound other hother hmem => ?_) h
  dsimp only at hmem
  split at hmem
  · exact hfound hmem
  · rcases List.mem_append.mp hmem with hmem | hmem
    · exact hfound hmem
    · exact .inr (List.mem_singleton.mp hmem ▸ hother)

/-- A field is authored for a node: it is one of the node itself or one of its data. -/
def IsAuthored (fields : Fields) (field : Text × Json) : Prop :=
  field ∈ fields ∨ ∃ data, (text "data", .obj data) ∈ fields ∧ field ∈ data

/-- The fields of a node and, where it has none of a name, those of its data. -/
def flatFields (fields : Fields) : Fields :=
  match fields.get? (text "data") with
  | some (.obj data) => addAbsent (fields.without (text "data")) data
  | _ => fields.without (text "data")

/-- These fields are authored for the node. -/
theorem mem_flatFields {fields : Fields} {field : Text × Json} (h : field ∈ flatFields fields) :
    IsAuthored fields field := by
  unfold flatFields at h
  split at h
  · next data hgiven =>
    rcases mem_addAbsent h with hmem | hmem
    · exact .inl (List.mem_filter.mp hmem).1
    · exact .inr ⟨data, Fields.mem_of_get? hgiven, hmem⟩
  · exact .inl (List.mem_filter.mp h).1

/-- A field of a node in the flat shape is authored for it, or is an empty configuration. -/
theorem mem_liftNode {fields : Fields} {field : Text × Json} (h : field ∈ liftNode fields) :
    IsAuthored fields field ∨ field = (text "config", .obj []) := by
  unfold liftNode at h
  dsimp only at h
  split at h
  case h_3 => exact .inl (mem_flatFields (List.mem_filter.mp h).1)
  all_goals
    rcases Json.mem_put h with rfl | hmem
    · exact .inr rfl
    · exact .inl (mem_flatFields (List.mem_filter.mp hmem).1)

/-- The configuration of a node that is read is regular if what it is read from is. -/
theorem Node.regular_of_read {n : Node} (hv : v.Regular (most + 1)) (h : Node.read origin v = .valid n) :
    (Json.obj n.config).Regular (most + 1) := by
  obtain ⟨fields, rfl, -⟩ := record_eq_valid.mp h
  obtain ⟨-, -, hconfig⟩ := Node.read_eq_valid_iff.mp h
  have hempty : (Json.obj []).Regular (most + 1) :=
    Json.regular_obj List.nodup_nil fun _ hfield => absurd hfield List.not_mem_nil
  rcases optional_eq_valid hconfig with hnone | ⟨name, -, given, hgiven, hmapping⟩
  · rw [hnone]
    exact hempty
  · obtain rfl := eq_obj_of_mapping_any hmapping
    rcases mem_liftNode (Fields.mem_of_get? hgiven) with (hfield | ⟨data, hdata, hfield⟩) | hfield
    · exact hv.of_mem hfield
    · exact (hv.of_mem hdata).of_mem hfield
    · rw [(Prod.mk.inj hfield).2]
      exact hempty

/-- The configurations of a board that is read are regular if what it is read from is. -/
theorem regular_of_read {b : Board} (hv : v.Regular (most + 1)) (h : read origin v = .valid b) :
    b.Regular (most + 1) := by
  obtain ⟨fields, rfl, -⟩ := record_eq_valid.mp h
  obtain ⟨hnodes, -⟩ := read_eq_valid_iff.mp h
  intro n hn
  rcases optional_eq_valid hnodes with hnone | ⟨name, -, given, hgiven, hlist⟩
  · exact absurd (hnone ▸ hn) List.not_mem_nil
  · obtain ⟨items, rfl, hitems⟩ := list_eq_valid.mp hlist
    have hread : Verdict.valid n ∈ items.map (Node.read origin) := hitems ▸ List.mem_map_of_mem hn
    obtain ⟨item, hitem, hread⟩ := List.mem_map.mp hread
    exact Node.regular_of_read ((hv.of_mem (Fields.mem_of_get? hgiven)).of_mem_items hitem) hread

/-- The cases that a regular configuration lists are regular. -/
theorem regular_of_mem_casesOf {cfg : Fields} {case : Json} (h : (Json.obj cfg).Regular most)
    (hcase : case ∈ casesOf cfg) : case.Regular most := by
  unfold casesOf at hcase
  split at hcase
  · next cases hget => exact (h.of_mem (Fields.mem_of_get? hget)).of_mem_items hcase
  · cases hcase

/-- Labels can be written for the cases of a board whose configurations documents can hold. -/
theorem Regular.casesSized {b : Board} (h : b.Regular Json.Limits.outside.depth) : b.CasesSized := by
  intro n hn case hcase v hv
  have hregular := regular_of_mem_casesOf (h n hn) hcase
  cases case with
  | obj fields => exact (hregular.of_mem (Fields.mem_of_get? hv)).sized
  | _ => cases hv

/-- A board whose configurations documents can hold is compiled to a definition that a document can hold. -/
theorem Regular.compile {b : Board} (h : b.Regular most) (id name : Text) (version : Int) :
    (b.compile id name version).Regular most where
  names := by
    have hids : (b.compile id name version).nodes.map Prod.fst = b.runningNodes.map Node.id :=
      List.map_map
    rw [hids]
    exact (nodup_firstsBy Node.id [] b.nodes).sublist (List.Sublist.map _ List.filter_sublist)
  configs := List.forall_mem_map.mpr fun n hn =>
    h n (mem_firstsBy (List.mem_filter.mp hn).1).1

/-- A compiled definition does not contain the start node. -/
theorem startId_not_mem_compile (b : Board) (id name : Text) (version : Int) :
    startId ∉ (b.compile id name version).nodes.map Prod.fst :=
  fun h => (mem_map_fst_compile.mp h).2 rfl

end Board

end Showrunner
