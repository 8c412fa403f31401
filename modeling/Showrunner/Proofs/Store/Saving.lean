import Showrunner.Proofs.Outcome
import Showrunner.Proofs.Store.Documents
import Showrunner.Proofs.Store.Events
import Showrunner.Proofs.Store.Rows

/-!
# Saving and finding workflows

A workflow is saved if its stamps have a reading in universal time, its texts can be written and its
version fits a column; a new one also needs an id that is free. Creating a workflow adds its row, and
updating one rewrites its row in place, but for the id and the time of creation. The workflow that is found
in a row is the one that was saved, without numbers that are not finite in the configurations of its nodes.
-/

namespace Showrunner

namespace Workflow

/-- A workflow as it is found once it has been saved. -/
def settled (w : Workflow) : Workflow :=
  { w with board := w.board.settled, definition := w.definition.settled }

/-- A workflow is written as it is found. -/
@[simp] theorem dump_settled (w : Workflow) (kindName : String) :
    w.settled.dump kindName = w.dump kindName := by
  simp [dump, settled]

/-- A workflow can be held by documents: its board and its definition can, the definition does not contain
the start node, and its warnings are texts of characters. -/
structure Regular (w : Workflow) : Prop where
  board : w.board.Regular 150
  definition : w.definition.Regular 150
  started : startId ∉ w.definition.nodes.map Prod.fst
  numbered : w.definition.version = w.version
  warnings : ∀ t ∈ w.warnings, t.isScalar = true

end Workflow

namespace Store

variable {s s' : Store} {w w' : Workflow} {v : Json} {id t : Text}

/-- A document of a record is written if its texts are texts of characters. -/
theorem recordDocument_eq_ok : recordDocument v = .ok t ↔ v.strayHalf? = none ∧ v.writeText = t := by
  rw [recordDocument]
  cases v.strayHalf? <;> simp

/-- A record is read from its document as it is read from its value. -/
theorem readRecord_writeText {α : Type} {most : Nat} (h : v.Regular most)
    (hmost : most ≤ recordLimits.depth) (htexts : v.strayHalf? = none) (read : Reader α) :
    readRecord read v.writeText = (read v).toExcept := by
  rw [readRecord, h.read_write htexts recordLimits rfl hmost]

/-- The row of a workflow that was created and updated at some times. -/
def WorkflowRow.ofWorkflow (w : Workflow) (createdAt updatedAt : Wall) : WorkflowRow :=
  { id := w.id
    name := w.name
    version := w.version
    board := (w.board.dump "action_kind").writeText
    definition := w.definition.dump.writeText
    warnings := (Workflow.dumpTexts w.warnings).writeText
    createdAt := createdAt
    updatedAt := updatedAt }

/-- The texts of a workflow's board and of its definition are texts of characters, its id and its name can
be written, and its version fits a column. -/
structure Takes (w : Workflow) : Prop where
  board : (w.board.dump "action_kind").strayHalf? = none
  definition : w.definition.dump.strayHalf? = none
  id : Utf8.unencodable? w.id = none
  name : Utf8.unencodable? w.name = none
  version : storable w.version = .ok ()

/-- An integer that fits a column has few digits. -/
theorem length_toDigits_of_storable {n : Int} (h : storable n = .ok ()) :
    (Nat.toDigits 10 n.natAbs).length ≤ Integer.digitLimit := by
  have hsize : n.natAbs < 10 ^ 20 := by
    rw [storable] at h
    split at h
    · omega
    · cases h
  have hlength := (Nat.length_toDigits_le_iff (b := 10) (by decide) (by decide : 0 < 20)).mpr hsize
  exact hlength.trans (by decide)

/-- A row holds a workflow: it was made of the workflow, whose stamps are in universal time, and its
documents can be read again. -/
structure WorkflowRow.Holds (r : WorkflowRow) (w : Workflow) : Prop where
  made : r = .ofWorkflow w r.createdAt r.updatedAt
  createdAt : w.createdAt = .utc r.createdAt
  updatedAt : w.updatedAt = .utc r.updatedAt
  regular : w.Regular
  takes : Takes w

section

variable {r : WorkflowRow}

/-- A row has the id of the workflow that it holds. -/
theorem WorkflowRow.Holds.id_eq (h : r.Holds w) : r.id = w.id := congrArg WorkflowRow.id h.made

/-- The board of a workflow is found in the row that holds the workflow. -/
theorem WorkflowRow.Holds.readBoard (h : r.Holds w) :
    readRecord (Board.read .value) r.board = .ok w.board.settled := by
  rw [h.made, ofWorkflow, readRecord_writeText h.regular.board.dump (by decide) h.takes.board,
    Board.read_dump]
  rfl

/-- The definition of a workflow is found in the row that holds the workflow. -/
theorem WorkflowRow.Holds.readDefinition (h : r.Holds w) :
    readRecord (Definition.read .value) r.definition = .ok w.definition.settled := by
  have hversion : (Nat.toDigits 10 w.definition.version.natAbs).length ≤ Integer.digitLimit :=
    h.regular.numbered ▸ length_toDigits_of_storable h.takes.version
  rw [h.made, ofWorkflow, readRecord_writeText (h.regular.definition.dump hversion) (by decide)
    h.takes.definition, Definition.read_dump h.regular.started]
  rfl

/-- The warnings of a workflow are found in the row that holds the workflow. -/
theorem WorkflowRow.Holds.readWarnings (h : r.Holds w) :
    readColumn r.warnings = .ok (.arr (w.warnings.map .str)) := by
  have hregular : (Workflow.dumpTexts w.warnings).Regular 1 := Json.regular_texts w.warnings
  have htexts : (Workflow.dumpTexts w.warnings).strayHalf? = none := by
    rw [Json.strayHalf?_eq_none, Workflow.dumpTexts, Json.texts, Json.itemTexts_eq, List.flatMap_map]
    intro t ht
    obtain ⟨warning, hwarning, htext⟩ := List.mem_flatMap.mp ht
    exact List.mem_singleton.mp htext ▸ h.regular.warnings warning hwarning
  rw [h.made, ofWorkflow, readColumn, hregular.read_write htexts .outside rfl (by decide)]
  rfl

/-- The workflow that a row holds is found in it, without numbers that are not finite. -/
theorem WorkflowRow.Holds.toWorkflow (h : r.Holds w) : r.toWorkflow = .ok w.settled := by
  rw [WorkflowRow.toWorkflow, h.readBoard, h.readDefinition, h.readWarnings]
  change ((Reader.list Reader.string (.arr (w.warnings.map .str))).under
    (.field (text "warnings"))).toExcept >>= _ = _
  rw [Reader.list_str, h.made]
  change Except.ok _ = Except.ok _
  rw [Workflow.settled, h.createdAt, h.updatedAt]
  rfl

end

/-- The rows of a table are there exactly if the table is. -/
theorem rowsOf_eq_ok {Row : Type} {name : TableName} {table : Table Row} {rows : List Row} :
    rowsOf name table = .ok rows ↔ table = some rows := by
  cases table <;> simp [rowsOf]

/-- Rows that are rewritten under their id keep the ids that they have. -/
theorem ids_modify {f : WorkflowRow → WorkflowRow} (h : ∀ r, (f r).id = id) (rows : List WorkflowRow) :
    (modify WorkflowRow.id id f rows).map WorkflowRow.id = rows.map WorkflowRow.id := by
  rw [modify, List.map_map]
  refine List.map_congr_left fun r _ => ?_
  rw [Function.comp_apply]
  split
  · next hid => exact (h r).trans hid.symm
  · rfl

/-- A row that is rewritten under its id is found as it is then. -/
theorem find?_modify {f : WorkflowRow → WorkflowRow} (h : ∀ r, (f r).id = id)
    {rows : List WorkflowRow} {r : WorkflowRow} (hfind : rows.find? (·.id = id) = some r) :
    (modify WorkflowRow.id id f rows).find? (·.id = id) = some (f r) := by
  have hsame : ((fun r => decide (r.id = id)) ∘ fun r => if r.id = id then f r else r) =
      fun r => decide (r.id = id) := by
    funext r
    rw [Function.comp_apply]
    split
    · next hid => rw [h, hid]
    · rfl
  have hid : r.id = id := by simpa using List.find?_some hfind
  rw [modify, List.find?_map, hsame, hfind, Option.map_some, if_pos hid]

/-- The documents of a workflow are written if the texts of its board and of its definition are texts of
characters. -/
theorem documentsOf_eq_ok {documents : Text × Text} :
    documentsOf w = .ok documents ↔
      (w.board.dump "action_kind").strayHalf? = none ∧ w.definition.dump.strayHalf? = none ∧
        documents = ((w.board.dump "action_kind").writeText, w.definition.dump.writeText) := by
  rw [documentsOf]
  simp only [bind_eq_ok, recordDocument_eq_ok]
  constructor
  · rintro ⟨_, ⟨hboard, rfl⟩, _, ⟨hdefinition, rfl⟩, h⟩
    cases h
    exact ⟨hboard, hdefinition, rfl⟩
  · rintro ⟨hboard, hdefinition, rfl⟩
    exact ⟨_, ⟨hboard, rfl⟩, _, ⟨hdefinition, rfl⟩, rfl⟩

/-- Creating a workflow adds its row behind those of others. -/
theorem createWorkflow_ok (h : s.createWorkflow w = .ok (s', w')) :
    w' = w ∧ Takes w ∧ ∃ rows createdAt updatedAt, s.workflows = some rows ∧
      instantOf w.createdAt = .ok createdAt ∧ instantOf w.updatedAt = .ok updatedAt ∧
      (∀ r ∈ rows, r.id ≠ w.id) ∧
      s' = { s with workflows := some (rows ++ [.ofWorkflow w createdAt updatedAt]) } := by
  unfold createWorkflow at h
  simp only [bind_eq_ok, documentsOf_eq_ok, rowsOf_eq_ok] at h
  obtain ⟨_, ⟨hboard, hdefinition, rfl⟩, createdAt, hcreated, updatedAt, hupdated, rows, hrows, _,
    hids, _, hversion, h⟩ := h
  obtain ⟨hid, hname⟩ := List.forall_mem_cons.mp (encodable_iff.mp hids)
  split at h
  · obtain ⟨_, hfail, -⟩ := bind_eq_ok.mp h
    cases hfail
  · next hfree =>
    cases h
    refine ⟨rfl, ⟨hboard, hdefinition, hid, hname _ (List.mem_singleton_self _), hversion⟩, rows,
      createdAt, updatedAt, hrows, hcreated, hupdated, fun r hr hsame => ?_, rfl⟩
    exact hfree (List.any_eq_true.mpr ⟨r, hr, decide_eq_true hsame⟩)

/-- Updating a workflow rewrites its row. -/
theorem updateWorkflow_ok {found : Option Workflow} (hid : w.id = id)
    (h : s.updateWorkflow id w = .ok (s', found)) :
    Takes w ∧ ∃ rows updatedAt, s.workflows = some rows ∧ instantOf w.updatedAt = .ok updatedAt ∧
      found = (if rows.any (·.id = id) then some w else none) ∧
      s' = { s with workflows := some (modify WorkflowRow.id id
        (fun r => .ofWorkflow w r.createdAt updatedAt) rows) } := by
  unfold updateWorkflow at h
  simp only [bind_eq_ok, documentsOf_eq_ok, rowsOf_eq_ok] at h
  obtain ⟨_, ⟨hboard, hdefinition, rfl⟩, updatedAt, hupdated, rows, hrows, _, hname, _, hversion, _,
    hids, h⟩ := h
  cases h
  have hwritten := encodable_iff.mp hids id (List.mem_singleton_self _)
  refine ⟨⟨hboard, hdefinition, hid ▸ hwritten, encodable_iff.mp hname _ (List.mem_singleton_self _),
    hversion⟩, rows, updatedAt, hrows, hupdated, rfl, ?_⟩
  -- the row that is rewritten keeps its id, which is that of the workflow
  have hsame : modify WorkflowRow.id id (WorkflowRow.update w (w.board.dump "action_kind").writeText
      w.definition.dump.writeText updatedAt) rows = modify WorkflowRow.id id
        (fun r => .ofWorkflow w r.createdAt updatedAt) rows := by
    refine List.map_congr_left fun r _ => ?_
    split
    · next hr => simp only [WorkflowRow.update, WorkflowRow.ofWorkflow, hid, hr]
    · rfl
  rw [hsame]

/-- A row is found by an id that can be written. -/
theorem workflowRow?_eq {rows : List WorkflowRow} (hrows : s.workflows = some rows)
    (hid : Utf8.unencodable? id = none) : s.workflowRow? id = .ok (rows.find? (·.id = id)) := by
  have hencodable : encodable [id] = .ok () := encodable_iff.mpr (List.forall_mem_singleton.mpr hid)
  rw [workflowRow?, rowsOf_eq_ok.mpr hrows]
  change encodable [id] >>= _ = _
  rw [hencodable]
  rfl

/-- The workflow that a row holds is found by its id. -/
theorem WorkflowRow.Holds.getWorkflow {r : WorkflowRow} (h : r.Holds w) {rows : List WorkflowRow}
    (hrows : s.workflows = some rows) (hfind : rows.find? (·.id = w.id) = some r) :
    s.getWorkflow w.id = .ok (some w.settled) := by
  rw [Store.getWorkflow, workflowRow?_eq hrows h.takes.id, hfind]
  change r.toWorkflow >>= _ = _
  rw [h.toWorkflow]
  rfl

/-- The definition of the workflow that a row holds is found by the id of the workflow. -/
theorem WorkflowRow.Holds.getDefinition {r : WorkflowRow} (h : r.Holds w) {rows : List WorkflowRow}
    (hrows : s.workflows = some rows) (hfind : rows.find? (·.id = w.id) = some r) :
    s.getDefinition w.id = .ok (some w.definition.settled) := by
  rw [Store.getDefinition, workflowRow?_eq hrows h.takes.id, hfind]
  change readRecord (Definition.read .value) r.definition >>= _ = _
  rw [h.readDefinition]
  rfl

/-- The workflows that are found in rows are listed, the latest created first. -/
theorem listWorkflows_eq {rows : List WorkflowRow} (hrows : s.workflows = some rows)
    {found : WorkflowRow → Workflow} (h : ∀ r ∈ rows, r.toWorkflow = .ok (found r)) :
    s.listWorkflows =
      .ok ((rows.mergeSort fun a b => b.createdAt ≤ a.createdAt).map found) := by
  rw [listWorkflows, rowsOf_eq_ok.mpr hrows]
  exact mapM_eq_ok_map fun r hr => h r (List.mem_mergeSort.mp hr)

/-- A workflow that is found has a row, under an id that can be written. -/
theorem getWorkflow_some (h : s.getWorkflow id = .ok (some w)) :
    Utf8.unencodable? id = none ∧ ∃ rows r, s.workflows = some rows ∧ rows.find? (·.id = id) = some r ∧
      r.toWorkflow = .ok w := by
  obtain ⟨row, hrow, hfound⟩ := bind_eq_ok.mp h
  rw [workflowRow?] at hrow
  simp only [bind_eq_ok, rowsOf_eq_ok] at hrow
  obtain ⟨rows, hrows, _, hid, hrow⟩ := hrow
  cases hfind : rows.find? (·.id = id) with
  | none =>
    rw [hfind] at hrow
    cases hrow
    cases hfound
  | some r =>
    rw [hfind] at hrow
    cases hrow
    obtain ⟨found, hr, hsame⟩ := bind_eq_ok.mp hfound
    cases hsame
    exact ⟨encodable_iff.mp hid id (List.mem_singleton_self _), rows, r, hrows, hfind, hr⟩

/-- An update that finds no workflow leaves the store alone. -/
theorem updateWorkflow_none (hid : w.id = id) (h : s.updateWorkflow id w = .ok (s', none)) : s' = s := by
  obtain ⟨-, rows, updatedAt, hrows, -, hfound, rfl⟩ := updateWorkflow_ok hid h
  split at hfound
  · cases hfound
  · next hnone =>
    have hothers : ∀ r ∈ rows, r.id ≠ id := by simpa using hnone
    have hsame : modify WorkflowRow.id id (fun r => .ofWorkflow w r.createdAt updatedAt) rows = rows := by
      rw [modify, List.map_congr_left fun r hr => if_neg (hothers r hr), List.map_id']
    rw [hsame, ← hrows]

/-- An update that finds a workflow returns it as it is saved, and rewrites its row. -/
theorem updateWorkflow_some (hid : w.id = id) (h : s.updateWorkflow id w = .ok (s', some w')) :
    w' = w ∧ Takes w ∧ ∃ rows updatedAt, s.workflows = some rows ∧
      instantOf w.updatedAt = .ok updatedAt ∧ (∃ r ∈ rows, r.id = id) ∧
      s' = { s with workflows := some (modify WorkflowRow.id id
        (fun r => .ofWorkflow w r.createdAt updatedAt) rows) } := by
  obtain ⟨htakes, rows, updatedAt, hrows, hupdated, hfound, hstore⟩ := updateWorkflow_ok hid h
  split at hfound
  · next hany =>
    exact ⟨Option.some.inj hfound, htakes, rows, updatedAt, hrows, hupdated, by simpa using hany, hstore⟩
  · cases hfound

end Store

end Showrunner
