import Showrunner.Proofs.Store.Saving
import Showrunner.Proofs.Text.Characters
import Showrunner.Web.Handle

/-!
# Documents that can be sent

A document is sent if its numbers are finite and its texts are texts of characters. So a workflow that
the store took can be sent, and a plan whose texts the store took, since whatever else stands in them was
written by the library itself. A report can be sent if the messages of its results can.
-/

namespace Showrunner

namespace Web

open Response

variable {v : Json} {fields : Fields}

/-- A document can be sent if its numbers are finite and its texts have encodings. -/
theorem isSendable_iff : isSendable v = true ↔ v.isFinite = true ∧ v.strayHalf? = none := by
  simp [isSendable]

/-- The missing value can be sent. -/
@[simp] theorem isSendable_null : isSendable .null = true := rfl

/-- A text can be sent if it is a text of characters. -/
@[simp] theorem isSendable_str (t : Text) : isSendable (.str t) = t.isScalar := by
  cases ht : t.isScalar <;> simp [isSendable, Json.isFinite, Json.strayHalf?, Json.texts, ht]

/-- An integer can be sent. -/
@[simp] theorem isSendable_int (n : Int) : isSendable (.int n) = true := rfl

/-- A list can be sent if its items can. -/
@[simp] theorem isSendable_arr (items : List Json) :
    isSendable (.arr items) = items.all isSendable := by
  rw [Bool.eq_iff_iff, List.all_eq_true, isSendable_iff, Json.strayHalf?_eq_none, Json.isFinite,
    Json.itemsFinite_iff, Json.texts, Json.itemTexts_eq]
  simp only [isSendable_iff, Json.strayHalf?_eq_none, List.mem_flatMap]
  constructor
  · exact fun h v hv => ⟨h.1 v hv, fun t ht => h.2 t ⟨v, hv, ht⟩⟩
  · intro h
    refine ⟨fun v hv => (h v hv).1, fun t ht => ?_⟩
    obtain ⟨v, hv, htext⟩ := ht
    exact (h v hv).2 t htext

/-- An object can be sent if its names are texts of characters and its values can be sent. -/
@[simp] theorem isSendable_obj (fields : Fields) :
    isSendable (.obj fields) = fields.all fun field => field.1.isScalar && isSendable field.2 := by
  rw [Bool.eq_iff_iff, List.all_eq_true, isSendable_iff, Json.strayHalf?_eq_none, Json.isFinite,
    Json.fieldsFinite_iff, Json.texts, Json.fieldTexts_eq]
  simp only [Bool.and_eq_true, isSendable_iff, Json.strayHalf?_eq_none, List.mem_flatMap]
  constructor
  · exact fun h field hfield => ⟨h.2 _ ⟨field, hfield, .head _⟩, h.1 field hfield,
      fun t ht => h.2 t ⟨field, hfield, .tail _ ht⟩⟩
  · intro h
    refine ⟨fun field hfield => (h field hfield).2.1, fun t ht => ?_⟩
    obtain ⟨field, hfield, htext⟩ := ht
    rcases List.mem_cons.mp htext with rfl | hvalue
    · exact (h field hfield).1
    · exact (h field hfield).2.2 t hvalue

/-- An optional text can be sent if it is a text of characters. -/
@[simp] theorem isSendable_ofText? (t : Option Text) :
    isSendable (Json.ofText? t) = t.all Text.isScalar := by
  cases t <;> simp [Json.ofText?]

/-- A list of texts can be sent if they are texts of characters. -/
@[simp] theorem isSendable_texts (texts : List Text) :
    isSendable (.arr (texts.map .str)) = texts.all Text.isScalar := by
  rw [isSendable_arr, List.all_map]
  exact congrArg texts.all (funext isSendable_str)

/-! ## Workflows -/

/-- A written board has finite numbers. -/
theorem isFinite_board (b : Board) (kindName : String) : (b.dump kindName).isFinite = true := by
  have hnodes : Json.itemsFinite (b.nodes.map (·.dump kindName)) = true :=
    Json.itemsFinite_iff.mpr (List.forall_mem_map.mpr fun n _ => by
      simp [Board.Node.dump, Json.isFinite, Json.fieldsFinite])
  have hconnections : Json.itemsFinite (b.connections.map Board.Connection.dump) = true :=
    Json.itemsFinite_iff.mpr (List.forall_mem_map.mpr fun c _ => by
      simp [Board.Connection.dump, Json.isFinite, Json.fieldsFinite])
  simp [Board.dump, Json.isFinite, Json.fieldsFinite, hnodes, hconnections]

/-- A board can be sent under any name for the kinds of its nodes if a document of its can be written. -/
theorem isSendable_board {b : Board} (kindName : String)
    (h : (b.dump "action_kind").strayHalf? = none) : isSendable (b.dump kindName) = true := by
  have hsame : isSendable (b.dump kindName) = isSendable (b.dump "action_kind") := by
    simp [Board.dump, Board.Node.dump, Function.comp_def]
  rw [hsame, isSendable_iff]
  exact ⟨isFinite_board b "action_kind", h⟩

/-- A written definition has finite numbers. -/
theorem isFinite_definition (d : Definition) : d.dump.isFinite = true := by
  have hedges : ∀ n : Definition.Node,
      Json.itemsFinite (n.edges.map Definition.Edge.dump) = true := fun n =>
    Json.itemsFinite_iff.mpr (List.forall_mem_map.mpr fun e _ => by
      simp [Definition.Edge.dump, Json.isFinite, Json.fieldsFinite])
  have hnodes : Json.fieldsFinite (d.nodes.map fun entry => (entry.1, entry.2.dump)) = true :=
    Json.fieldsFinite_iff.mpr (List.forall_mem_map.mpr fun entry _ => by
      simp [Definition.Node.dump, Json.isFinite, Json.fieldsFinite, hedges])
  exact Json.fieldsFinite_iff.mpr (by simp [Json.isFinite, hnodes])

/-- A workflow that the store takes can be sent. -/
theorem isSendable_dumpWorkflow {w : Workflow} (htakes : Store.Takes w)
    (hwarnings : ∀ t ∈ w.warnings, t.isScalar = true) : isSendable (dumpWorkflow w) = true := by
  have hboard := isSendable_board "actionKind" htakes.board
  have hdefinition : isSendable w.definition.dump = true :=
    isSendable_iff.mpr ⟨isFinite_definition w.definition, htakes.definition⟩
  have hid := Utf8.unencodable?_eq_none.mp htakes.id
  have hname := Utf8.unencodable?_eq_none.mp htakes.name
  simpa [dumpWorkflow, Workflow.dump, Workflow.dumpTexts, hboard, hdefinition, hid, hname,
    Function.comp_def] using hwarnings

/-! ## Plans and reports -/

/-- The texts of a plan that its author gave, its id and its last error. -/
def planTexts (p : Plan) : List Text :=
  [p.id, p.userId, p.influencerId, p.lookId, p.prompt] ++ p.title.toList ++ p.rrule.toList ++
    p.lastError.toList

/-- A plan can be sent if its texts are texts of characters. -/
theorem isSendable_plan (p : Plan) : isSendable p.dump = (planTexts p).all Text.isScalar := by
  have hstamp : ∀ s : Option Stamp, isSendable (Plan.dumpStamp? s) = true := fun s => by
    cases s <;> simp [Plan.dumpStamp?]
  have htext : ∀ t : Option Text, t.all Text.isScalar = t.toList.all Text.isScalar := fun t => by
    cases t <;> simp
  simp [Plan.dump, Plan.Draft.dumpFields, Plan.Status.dump, hstamp, htext, planTexts, Bool.and_comm,
    Bool.and_left_comm, Bool.and_assoc]

/-- A report can be sent if the ids and the messages of its results are texts of characters. -/
theorem isSendable_report (report : Plan.Report) :
    isSendable report.dump =
      report.results.all fun result => result.planId.isScalar && result.message.isScalar := by
  simp [Plan.Report.dump, Plan.Result.dump, Function.comp_def]

end Web

end Showrunner
