import Showrunner.Proofs.Board.Settling
import Showrunner.Proofs.Web.Submissions

/-!
# Workflows that are reloaded

A workflow that a request saved is found in the store afterwards, with its name and its version. Its board and
its definition are those that were saved, but without the numbers that are not finite: a request can bring
such numbers, and documents of records hold none. So the workflow is found as it was saved exactly if its
board has finite numbers only, and compiling its board again gives its definition if the values of the cases
of switches have finite numbers, from which branches have their labels.
-/

namespace Showrunner

namespace Web

open Store (WorkflowRow Table)

variable {σ : Type} {service : Service} {outer : Surroundings σ} {s : Stage σ} {r : Request}
  {x : Exchange} {id token : Text} {w : Workflow} {before after : Table WorkflowRow}

/-- A workflow that is found is what is left of a workflow that was saved: the two are the same exactly if the
board has finite numbers, and the board is compiled to the definition again if the values of cases do. -/
structure Reloaded (saved found : Workflow) : Prop where
  name : found.name = saved.name
  version : found.version = saved.version
  board : found.board = saved.board.settled
  definition : found.definition = saved.definition.settled
  same : found.board = saved.board ∧ found.definition = saved.definition ↔ saved.board.IsFinite
  recompiled : saved.board.CasesFinite → ∀ id,
    found.board.compile id found.name found.version = { found.definition with id := id }

/-- A request to save a workflow that succeeds saves one. -/
theorem exists_saves
    (hroute : r.endpoint? = some .createWorkflow ∨ ∃ id, r.endpoint? = some (.updateWorkflow id))
    (hstatus : (handle service outer token r s).2.map Response.status = some 200) :
    ∃ id, (exchange service outer token r s).saves id = true := by
  rcases hroute with hroute | ⟨id, hroute⟩
  · obtain ⟨response, hresponse, hfine⟩ := Option.map_eq_some_iff.mp hstatus
    rcases handle_cases service outer hroute token s with
      ⟨_, hfailure, hfailed, -⟩ | ⟨v, _, hdid, hsome, hsent⟩ | ⟨hdispatch, -⟩
    · cases hresponse.symm.trans hfailure
      omega
    · cases hresponse.symm.trans hsome
      cases hdid with
      | nothing hwrites => cases hwrites
      | @createdWorkflow _ w =>
        refine ⟨w.id, ?_⟩
        split at hsent
        · simp [Exchange.saves, Exchange.creates, Exchange.answer?, exchange, hroute, hresponse, hsent,
            idIn?_dumpWorkflow]
        · cases hfine.symm.trans hsent
    · cases hdispatch
  · exact ⟨id, by simp [Exchange.saves, Exchange.updates, Exchange.status?, exchange, hroute, hstatus]⟩

/-- The one workflow that an exchange saved has a row, which is found by its id. -/
theorem Saving.row (h : Saving service x before after) (hsaves : x.saves id = true) :
    ∃ w rows row, (∀ other, x.saves other = true → other = w.id) ∧ x.Saved service w ∧
      after = some rows ∧ rows.find? (·.id = w.id) = some row ∧ row.Holds w := by
  cases h with
  | none hother => cases (hother id).symm.trans hsaves
  | @created rows row w hroute hsaved hholds _ _ hfree =>
    refine ⟨w, _, row, fun _ => hsaved.eq_of_saves (.inl hroute), hsaved, rfl, ?_, hholds⟩
    have hnone : rows.find? (·.id = w.id) = .none := by simpa using hfree
    rw [List.find?_append, hnone, Option.none_or]
    exact List.find?_cons_of_pos (decide_eq_true hholds.id_eq)
  | @updated rows current w updatedAt hroute hsaved hfind _ hholds =>
    have hrewritten : ∀ r : WorkflowRow, (WorkflowRow.ofWorkflow w r.createdAt updatedAt).id = w.id :=
      fun _ => rfl
    exact ⟨w, _, _, fun _ => hsaved.eq_of_saves (.inr hroute), hsaved, rfl,
      Store.find?_modify hrewritten hfind, hholds⟩

/-- What is found of the record of a submission is what is left of it. -/
theorem Records.reloaded {submission : Workflow.Submission} (h : Records service submission w) :
    Reloaded w w.settled where
  name := rfl
  version := rfl
  board := rfl
  definition := rfl
  same := by
    constructor
    · exact fun hsame => Board.settled_eq_self.mp hsame.1
    · intro hfinite
      refine ⟨Board.settled_eq_self.mpr hfinite, ?_⟩
      change w.definition.settled = w.definition
      rw [h.definition, ← h.board]
      exact Board.settled_compile hfinite _ _ _
  recompiled := fun hcases id => by
    change w.board.settled.compile id w.name w.version = { w.definition.settled with id := id }
    rw [Board.compile_settled hcases, h.definition, h.board, h.name]
    rfl

/-- In every stage, a request to save a workflow that succeeds is answered with the record of what was
submitted, and leaves in the store what is left of it: the workflow is found with its name and its version,
and with its board and its definition as they were saved exactly if the board has finite numbers. The board
that is found is compiled to the definition that is found if the values of cases have finite numbers. -/
theorem reloaded_of_saved (hutc : outer.TellsUtc) (hdepth : r.boardDepth ≤ mostDepth)
    (hroute : r.endpoint? = some .createWorkflow ∨ ∃ id, r.endpoint? = some (.updateWorkflow id))
    (hstatus : (handle service outer token r s).2.map Response.status = some 200) :
    ∃ submission saved found, r.submission? = some submission ∧ Records service submission saved ∧
      (∀ id, r.endpoint? = some (.updateWorkflow id) → saved.id = id) ∧
      (handle service outer token r s).2.bind Response.answer? = some (dumpWorkflow saved) ∧
      (handle service outer token r s).1.studio.store.getWorkflow saved.id = .ok (some found) ∧
      (handle service outer token r s).1.studio.store.getDefinition saved.id =
        .ok (some found.definition) ∧ Reloaded saved found := by
  obtain ⟨id, hsaves⟩ := exists_saves hroute hstatus
  obtain ⟨w, rows, row, honly, hsaved, hrows, hfind, hholds⟩ :=
    (saving_exchange hutc hdepth token s).row hsaves
  obtain ⟨submission, hread, hrecords⟩ := hsaved.record
  refine ⟨submission, w, w.settled, hread, hrecords, fun id hupdate => ?_, hsaved.answer,
    hholds.getWorkflow hrows hfind, hholds.getDefinition hrows hfind, hrecords.reloaded⟩
  have hupdates : (exchange service outer token r s).saves id = true := by
    simp [Exchange.saves, Exchange.updates, Exchange.status?, exchange, hupdate, hstatus]
  exact (honly id hupdates).symm

/-- A board with a number that is not finite, but not in the value of a case. -/
def endlessNote : Json :=
  boardOf (text "a") (text "switch") [(text "note", .float (.infinity false)), (text "cases", .arr [.obj [
    (text "value", .int 1), (text "next", .str (text "a"))]])]

/-- A board that is saved with a number that is not finite is found without it, and is compiled to the
definition that is found. -/
theorem endlessNote_reloaded :
    let r := boardRequest "POST" "/workflows" endlessNote
    let done := handle sampleService Dispatch.secondHour [] r ⟨sampleService.newStudio, 0⟩
    r.boardDepth ≤ mostDepth ∧ done.2.map Response.status = some 200 ∧
      ∃ saved found, done.2.bind Response.answer? = some (dumpWorkflow saved) ∧
        done.1.studio.store.getWorkflow saved.id = .ok (some found) ∧ found.board ≠ saved.board ∧
        ∀ id, found.board.compile id found.name found.version = { found.definition with id := id } := by
  intro r done
  have hdepth : r.boardDepth ≤ mostDepth := by decide +kernel
  have hroute : r.endpoint? = some .createWorkflow := by decide +kernel
  have hstatus : done.2.map Response.status = some 200 := by decide +kernel
  obtain ⟨submission, saved, found, hread, hrecords, -, hanswer, hfound, -, hreloaded⟩ :=
    reloaded_of_saved (fun _ => ⟨_, rfl⟩) hdepth (.inl hroute) hstatus
  have hnumbers : r.submission?.map (fun submission =>
      (decide submission.board.IsFinite, decide submission.board.CasesFinite)) = some (false, true) := by
    decide +kernel
  rw [hread, Option.map_some, ← hrecords.board] at hnumbers
  obtain ⟨hendless, hcases⟩ := Prod.mk.inj (Option.some.inj hnumbers)
  refine ⟨hdepth, hstatus, saved, found, hanswer, hfound, fun hsame => ?_,
    hreloaded.recompiled (of_decide_eq_true hcases)⟩
  exact of_decide_eq_false hendless (Board.settled_eq_self.mp (hreloaded.board.symm.trans hsame))

/-- The labels of the branches of a definition. -/
def labelsOf (d : Definition) : List (List Text) := d.nodes.map fun entry => entry.2.edges.map (·.label)

/-- A switch on a number that is not finite is saved, but its board is not found as it was submitted, and is
compiled to another definition than the one that is found. -/
theorem endlessSwitch_recompiled_otherwise :
    let r := boardRequest "POST" "/workflows" endlessSwitch
    let done := handle sampleService Dispatch.secondHour [] r ⟨sampleService.newStudio, 0⟩
    r.boardDepth ≤ mostDepth ∧ done.2.map Response.status = some 200 ∧
      ∃ submission found, r.submission? = some submission ∧
        done.1.studio.store.getWorkflow (text "wf-1") = .ok (some found) ∧
        found.board ≠ submission.board ∧
        ∀ id, found.board.compile id found.name found.version ≠ { found.definition with id := id } := by
  intro r done
  have hsubmitted : r.submission?.map (fun submission => decide submission.board.IsFinite) = some false := by
    decide +kernel
  have hstored : (done.1.studio.store.getWorkflow (text "wf-1")).toOption.map (·.map fun found =>
      decide found.board.IsFinite && decide (labelsOf found.definition = [[text "Infinity"]]) &&
        decide (labelsOf (found.board.compile [] found.name found.version) = [[text "null"]])) =
      some (some true) := by
    decide +kernel
  obtain ⟨submission, hread, hendless⟩ := Option.map_eq_some_iff.mp hsubmitted
  obtain ⟨result, hresult, htold⟩ := Option.map_eq_some_iff.mp hstored
  obtain ⟨found, rfl, hchecked⟩ := Option.map_eq_some_iff.mp htold
  simp only [Bool.and_eq_true, decide_eq_true_iff] at hchecked
  obtain ⟨⟨hfinite, hkept⟩, hrecompiled⟩ := hchecked
  refine ⟨by decide +kernel, by decide +kernel, submission, found, hread, ?_, ?_, ?_⟩
  · cases hget : done.1.studio.store.getWorkflow (text "wf-1") with
    | error fault =>
      rw [hget] at hresult
      cases hresult
    | ok result =>
      rw [hget] at hresult
      exact congrArg Except.ok (Option.some.inj hresult)
  · exact fun hsame => of_decide_eq_false hendless (hsame ▸ hfinite)
  · intro id hdefinition
    have hlabels := congrArg labelsOf hdefinition
    change labelsOf (found.board.compile [] found.name found.version) = labelsOf found.definition at hlabels
    rw [hrecompiled, hkept] at hlabels
    exact absurd hlabels (by decide)

end Web

end Showrunner
