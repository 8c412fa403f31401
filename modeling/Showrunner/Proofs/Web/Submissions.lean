import Showrunner.Proofs.Board.Reading
import Showrunner.Proofs.Dispatch.Keeping
import Showrunner.Proofs.Web.Exchanges

/-!
# Submissions that are saved

A board that a request submits is part of the value of its body, so documents can hold it and what it is
compiled to, if it does not nest too deep for the documents of records. So a request that is answered with a
saved workflow leaves a row that holds the workflow: a new row, or the row of the workflow in place. Every
other request leaves the workflows alone.
-/

namespace Showrunner

namespace Store

variable {s s' : Store} {r : WorkflowRow} {w : Workflow}

/-- Creating a plan leaves the workflows alone. -/
theorem workflows_createPlan {id : Text} {draft : Plan.Draft} {now : Stamp} {p : Plan}
    (h : s.createPlan id draft now = .ok (s', p)) : s'.workflows = s.workflows := by
  unfold createPlan at h
  simp only [bind_eq_ok] at h
  obtain ⟨_, -, _, -, _, -, _, -, h⟩ := h
  split at h
  · obtain ⟨_, hfail, -⟩ := bind_eq_ok.mp h
    cases hfail
  · cases h
    rfl

/-- A workflow that is found in a row has the version and the time of creation of the row. -/
theorem toWorkflow_ok (h : r.toWorkflow = .ok w) :
    w.version = r.version ∧ w.createdAt = .utc r.createdAt := by
  unfold WorkflowRow.toWorkflow at h
  simp only [bind_eq_ok] at h
  obtain ⟨_, -, _, -, _, -, _, -, h⟩ := h
  cases h
  exact ⟨rfl, rfl⟩

end Store

namespace Web

open Store (WorkflowRow Table)

variable {σ : Type} {service : Service} {outer : Surroundings σ} {s : Stage σ} {r : Request}
  {e : Endpoint} {v : Json} {submission : Workflow.Submission} {w : Workflow} {x : Exchange} {id : Text}

/-- The outside tells the time in universal time. -/
def Surroundings.TellsUtc (outer : Surroundings σ) : Prop := ∀ outside, ∃ time, outer.now outside = .utc time

/-- How deep the board that a request submits nests. -/
def Request.boardDepth (r : Request) : Nat :=
  match r.readBody with
  | .ok (.given v) => ((v.field? (text "board")).map Json.depth).getD 0
  | _ => 0

/-- How deep the board of a workflow that is to be saved may nest. -/
def mostDepth : Nat := 150

/-- The id that a document tells. -/
def idIn? (v : Json) : Option Text := (v.field? (text "id")).bind Json.str?

namespace Exchange

/-- An exchange created a workflow: it is answered with the workflow and its id. -/
def creates (id : Text) (x : Exchange) : Bool :=
  x.request.endpoint? = some .createWorkflow ∧ x.answer?.bind idIn? = some id

/-- An exchange updated a workflow. -/
def updates (id : Text) (x : Exchange) : Bool :=
  x.request.endpoint? = some (.updateWorkflow id) ∧ x.status? = some 200

/-- An exchange saved a workflow. -/
def saves (id : Text) (x : Exchange) : Bool := x.creates id || x.updates id

/-- A workflow is what an exchange saved: the record of what the request submitted, as of the time of the
exchange, with which the request is answered. -/
structure Saved (service : Service) (x : Exchange) (w : Workflow) : Prop where
  record : ∃ submission, x.request.submission? = some submission ∧ Records service submission w
  updatedAt : w.updatedAt = x.time
  answer : x.answer? = some (dumpWorkflow w)

end Exchange

/-- What an exchange does to the workflows: it saves none and leaves them alone, or it adds a row or rewrites
one that holds the workflow that it saved. -/
inductive Saving (service : Service) (x : Exchange) : Table WorkflowRow → Table WorkflowRow → Prop
  | none {table : Table WorkflowRow} (hother : ∀ id, x.saves id = false) : Saving service x table table
  | created {rows : List WorkflowRow} {row : WorkflowRow} {w : Workflow}
      (hroute : x.request.endpoint? = some .createWorkflow) (hsaved : x.Saved service w)
      (hholds : row.Holds w) (hversion : w.version = 1) (hcreated : w.createdAt = x.time)
      (hfree : ∀ r ∈ rows, r.id ≠ w.id) : Saving service x (some rows) (some (rows ++ [row]))
  | updated {rows : List WorkflowRow} {current : WorkflowRow} {w : Workflow} {updatedAt : Wall}
      (hroute : x.request.endpoint? = some (.updateWorkflow w.id)) (hsaved : x.Saved service w)
      (hfind : rows.find? (·.id = w.id) = some current) (hversion : w.version = current.version + 1)
      (hholds : (WorkflowRow.ofWorkflow w current.createdAt updatedAt).Holds w) :
      Saving service x (some rows) (some (Store.modify WorkflowRow.id w.id
        (fun r => .ofWorkflow w r.createdAt updatedAt) rows))

/-- A board with one node. -/
def boardOf (id kind : Text) (config : Fields) : Json :=
  .obj [(text "nodes", .arr [.obj [(text "id", .str id), (text "actionKind", .str kind),
    (text "config", .obj config)]])]

/-- A request that submits a board. -/
def boardRequest (method target : String) (board : Json) : Request :=
  sampleRequest method target (.obj [(text "name", .str (text "Flow")), (text "board", board)])

/-- A board with a switch on numbers, one of which is not finite, to which nothing leads. -/
def endlessSwitch : Json :=
  boardOf (text "a") (text "switch") [(text "cases", .arr [.obj [
    (text "value", .float (.infinity false)), (text "next", .str (text "a"))]])]

/-! ## Boards that are submitted -/

/-- The value that a request brings is regular. -/
theorem regular_of_readBody (h : r.readBody = .ok (.given v)) : v.Regular Json.Limits.outside.depth := by
  unfold Request.readBody readDocument readPlain at h
  split at h
  · cases h
  · split at h
    · split at h <;> cases h
      next hread =>
        unfold Json.readOctets at hread
        split at hread
        · cases hread
        · split at hread <;> cases hread
          next halone => exact Json.formed_of_readAlone Json.source_any trivial halone
    · split at h <;> cases h
      exact .str trivial

/-- A value that a request has to bring is read from its body. -/
theorem exists_body_of_required {α : Type} {read : Reader α} {a : α} (h : r.required read = .ok a) :
    ∃ v, r.readBody = .ok (.given v) ∧ read v = .valid a := by
  unfold Request.required at h
  cases hbody : r.readBody with
  | error problem =>
    rw [hbody] at h
    cases h
  | ok body =>
    rw [hbody] at h
    cases body with
    | absent => cases h
    | given v =>
      change accept bodyStep (read v) = .ok a at h
      refine ⟨v, rfl, ?_⟩
      unfold accept at h
      split at h
      · next found hvalid => exact Except.ok.inj h ▸ Verdict.under_eq_valid.mp hvalid
      · cases h

/-- A submission without a board has an empty one. Any other is read from a regular value in the body, which
nests as deep as the request says. -/
theorem board_of_submission (h : r.submission? = some submission) :
    submission.board.nodes = [] ∨ ∃ given : Json, given.Regular Json.Limits.outside.depth ∧
      given.depth = r.boardDepth ∧ Board.read .request given = .valid submission.board := by
  obtain ⟨v, hbody, hread⟩ := exists_body_of_required (submission?_iff_required.mp h)
  have hregular := regular_of_readBody hbody
  obtain ⟨fields, rfl, hfields⟩ := Reader.record_eq_valid.mp hread
  obtain ⟨_, board, hname, hboard, rfl⟩ := Verdict.seq_eq_valid.mp hfields
  obtain ⟨name, -, rfl⟩ := Verdict.functor_map_eq_valid.mp hname
  change board.nodes = [] ∨ _
  rcases Reader.optional_eq_valid hboard with rfl | ⟨key, hkey, given, hgiven, hread⟩
  · exact .inl rfl
  · obtain rfl := List.mem_singleton.mp hkey
    have hdepth : given.depth = r.boardDepth := by
      have hfield : (Json.obj fields).field? (text "board") = some given := hgiven
      rw [Request.boardDepth, hbody]
      dsimp only
      rw [hfield]
      rfl
    exact .inr ⟨given, hregular.of_mem (Fields.mem_of_get? hgiven), hdepth, hread⟩

/-- Documents can hold a board that is submitted, if it does not nest too deep. -/
theorem regular_submission (hdepth : r.boardDepth ≤ mostDepth) (h : r.submission? = some submission) :
    submission.board.Regular mostDepth := by
  rcases board_of_submission h with hempty | ⟨given, hregular, hgiven, hread⟩
  · exact fun n hn => absurd (hempty ▸ hn) List.not_mem_nil
  · exact Board.regular_of_read (hregular.of_depth (hgiven.trans_le hdepth)) hread

/-- Labels can be written for the cases of every board that is submitted, however deep it nests. -/
theorem casesSized_submission (h : r.submission? = some submission) : submission.board.CasesSized := by
  rcases board_of_submission h with hempty | ⟨given, hregular, -, hread⟩
  · exact fun n hn => absurd (hempty ▸ hn) List.not_mem_nil
  · exact (Board.regular_of_read hregular hread).casesSized

/-- The record of a submission whose board documents can hold is regular. -/
theorem Records.regular (h : Records service submission w)
    (hboard : submission.board.Regular mostDepth) : w.Regular where
  board := h.board ▸ hboard
  definition := h.definition ▸ hboard.compile _ _ _
  started := h.definition ▸ submission.board.startId_not_mem_compile _ _ _
  numbered := by rw [h.definition]; rfl
  warnings := h.warnings ▸ List.forall_mem_map.mpr fun warning _ => warning.isScalar_message

/-! ## What exchanges do to the workflows -/

/-- The answer with a workflow tells its id. -/
theorem idIn?_dumpWorkflow (w : Workflow) : idIn? (dumpWorkflow w) = some w.id := rfl

/-- An exchange saves a workflow if it creates it or updates it. -/
theorem Exchange.saves_eq_false :
    x.saves id = false ↔ x.creates id = false ∧ x.updates id = false := Bool.or_eq_false_iff

/-- An exchange that updates a workflow creates none. -/
theorem Exchange.creates_of_update {other : Text} (h : x.request.endpoint? = some (.updateWorkflow other)) :
    x.creates id = false := by
  simp [creates, h]

/-- An exchange that creates a workflow updates none. -/
theorem Exchange.updates_of_create (h : x.request.endpoint? = some .createWorkflow) :
    x.updates id = false := by
  simp [updates, h]

/-- An exchange that is answered with a document has status 200. -/
theorem Exchange.status?_of_answer? (h : x.answer? = some v) : x.status? = some 200 := by
  obtain ⟨response, hresponse, hanswer⟩ := Option.bind_eq_some_iff.mp h
  exact Option.map_eq_some_iff.mpr ⟨response, hresponse, (answer?_eq_some.mp hanswer).1⟩

/-- An exchange that creates a workflow creates the one that it saved. -/
theorem Exchange.Saved.creates_iff (h : x.Saved service w)
    (hroute : x.request.endpoint? = some .createWorkflow) : x.creates id = true ↔ id = w.id := by
  simp [creates, hroute, h.answer, idIn?_dumpWorkflow, eq_comm]

/-- An exchange that updates a workflow updates the one that it saved. -/
theorem Exchange.Saved.updates_iff (h : x.Saved service w)
    (hroute : x.request.endpoint? = some (.updateWorkflow w.id)) : x.updates id = true ↔ id = w.id := by
  simp [updates, hroute, status?_of_answer? h.answer, eq_comm]

/-- An exchange that saved a workflow saves no other. -/
theorem Exchange.Saved.eq_of_saves (h : x.Saved service w)
    (hroute : x.request.endpoint? = some .createWorkflow ∨
      x.request.endpoint? = some (.updateWorkflow w.id)) (hsaves : x.saves id = true) : id = w.id := by
  rcases hroute with hroute | hroute
  · rw [saves, updates_of_create hroute, Bool.or_false] at hsaves
    exact (h.creates_iff hroute).mp hsaves
  · rw [saves, creates_of_update hroute, Bool.false_or] at hsaves
    exact (h.updates_iff hroute).mp hsaves

/-- An exchange that ends with a failure saves no workflow. -/
theorem Exchange.saves_of_failed {response : Response} (hresponse : x.response = some response)
    (h : 400 ≤ response.status) (id : Text) : x.saves id = false := by
  have hfails : x.status? ≠ some 200 := fun hfine => by
    rw [status?, hresponse, Option.map_some, Option.some.injEq] at hfine
    omega
  have hanswer : x.answer? = none :=
    Option.eq_none_iff_forall_not_mem.mpr fun _ hanswer => hfails (status?_of_answer? hanswer)
  simp [saves, creates, updates, hfails, hanswer]

/-- An exchange that is not about saving a workflow saves none. -/
theorem Exchange.saves_of_other (hcreate : x.request.endpoint? ≠ some .createWorkflow)
    (hupdate : ∀ id, x.request.endpoint? ≠ some (.updateWorkflow id)) (id : Text) : x.saves id = false := by
  simp [saves, creates, updates, hcreate, hupdate]

variable {token : Text}

/-- The exchange of a request that is answered with the record of its submission saved the workflow. -/
theorem saved_exchange (hread : r.submission? = some submission) (hrecords : Records service submission w)
    (htakes : Store.Takes w) (hupdated : w.updatedAt = outer.now s.outside) {response : Response}
    (hresponse : (handle service outer token r s).2 = some response)
    (hsent : if Response.isSendable (dumpWorkflow w) then response.answer? = some (dumpWorkflow w)
      else response.status = 500) :
    (exchange service outer token r s).Saved service w where
  record := ⟨submission, hread, hrecords⟩
  updatedAt := hupdated
  answer := by
    rw [if_pos (hrecords.isSendable htakes)] at hsent
    exact Option.bind_eq_some_iff.mpr ⟨response, hresponse, hsent⟩

/-- An exchange that creates a workflow adds a row that holds it. -/
theorem saving_created {time : Wall} {store : Store} (htime : outer.now s.outside = .utc time)
    (hdepth : r.boardDepth ≤ mostDepth) (hroute : r.endpoint? = some .createWorkflow)
    (hread : r.submission? = some submission) (hrecords : Records service submission w)
    (hversion : w.version = 1) (hcreated : w.createdAt = outer.now s.outside)
    (hupdated : w.updatedAt = outer.now s.outside)
    (hstore : s.studio.store.createWorkflow w = .ok (store, w))
    (hsaved : Store.Takes w → (exchange service outer token r s).Saved service w) :
    Saving service (exchange service outer token r s) s.studio.store.workflows store.workflows := by
  obtain ⟨-, htakes, rows, createdAt, updatedAt, hrows, hcreatedAt, hupdatedAt, hfree, hafter⟩ :=
    Store.createWorkflow_ok hstore
  rw [hcreated, htime, Store.instantOf_utc] at hcreatedAt
  rw [hupdated, htime, Store.instantOf_utc] at hupdatedAt
  cases hcreatedAt
  cases hupdatedAt
  rw [hafter, hrows]
  exact .created hroute (hsaved htakes)
    ⟨rfl, hcreated.trans htime, hupdated.trans htime,
      hrecords.regular (regular_submission hdepth hread), htakes⟩ hversion hcreated hfree

/-- An exchange that updates a workflow rewrites its row, which holds the workflow then. -/
theorem saving_updated {time : Wall} {store : Store} {current : Workflow}
    (htime : outer.now s.outside = .utc time) (hdepth : r.boardDepth ≤ mostDepth)
    (hroute : r.endpoint? = some (.updateWorkflow w.id)) (hread : r.submission? = some submission)
    (hfound : s.studio.store.getWorkflow w.id = .ok (some current))
    (hrecords : Records service submission w) (hversion : w.version = current.version + 1)
    (hcreated : w.createdAt = current.createdAt) (hupdated : w.updatedAt = outer.now s.outside)
    (hstore : s.studio.store.updateWorkflow w.id w = .ok (store, some w))
    (hsaved : Store.Takes w → (exchange service outer token r s).Saved service w) :
    Saving service (exchange service outer token r s) s.studio.store.workflows store.workflows := by
  obtain ⟨-, htakes, rows, updatedAt, hrows, hupdatedAt, -, hafter⟩ :=
    Store.updateWorkflow_some rfl hstore
  rw [hupdated, htime, Store.instantOf_utc] at hupdatedAt
  cases hupdatedAt
  obtain ⟨-, rows', row, hrows', hfind, hcurrent⟩ := Store.getWorkflow_some hfound
  cases hrows.symm.trans hrows'
  obtain ⟨hrowVersion, hrowCreated⟩ := Store.toWorkflow_ok hcurrent
  rw [hafter, hrows]
  exact .updated hroute (hsaved htakes) hfind (hrowVersion ▸ hversion)
    ⟨rfl, hcreated.trans hrowCreated, hupdated.trans htime,
      hrecords.regular (regular_submission hdepth hread), htakes⟩

/-- An endpoint that saves no workflow leaves the workflows alone. -/
theorem Did.workflows {s' : Stage σ} (h : Did service outer r s e s' v) (hcreate : e ≠ .createWorkflow)
    (hupdate : ∀ id, e ≠ .updateWorkflow id) :
    s'.studio.store.workflows = s.studio.store.workflows := by
  cases h with
  | nothing _ hstore => rw [hstore]
  | createdWorkflow => exact absurd rfl hcreate
  | updatedWorkflow => exact absurd rfl (hupdate _)
  | capturedEvent hstore =>
    obtain ⟨-, _, _, -, -, -, hafter⟩ := Store.addEvent_ok hstore
    rw [hafter]
  | createdPlan hstore => exact Store.workflows_createPlan hstore
  | requeuedPlan hstore =>
    obtain ⟨start, -, hafter, -⟩ := Store.requeuePlan_ok hstore
    rw [hafter]
    rfl
  | @dispatched limit _ _ hrun =>
    have hafter := (tables_run outer s limit service.staleAfter).1
    rwa [hrun] at hafter

/-- Every exchange saves a workflow or leaves the workflows alone. -/
theorem saving_exchange (hutc : outer.TellsUtc) (hdepth : r.boardDepth ≤ mostDepth) (token : Text)
    (s : Stage σ) :
    Saving service (exchange service outer token r s) s.studio.store.workflows
      (handle service outer token r s).1.studio.store.workflows := by
  obtain ⟨time, htime⟩ := hutc s.outside
  cases hroute : r.endpoint? with
  | none =>
    rw [handle_of_no_endpoint hroute]
    exact .none (Exchange.saves_of_other (by simp [exchange, hroute]) (by simp [exchange, hroute]))
  | some e =>
    rcases handle_cases service outer hroute token s with
      ⟨response, hresponse, hfailed, hstore⟩ | ⟨v, response, hdid, hresponse, hsent⟩ |
        ⟨rfl, -, limit, hrun⟩
    · rw [hstore]
      exact .none (Exchange.saves_of_failed hresponse hfailed)
    · by_cases hcreate : e = .createWorkflow
      · subst hcreate
        cases hdid with
        | nothing hwrites => cases hwrites
        | createdWorkflow hread hrecords hversion hcreated hupdated hstore =>
          exact saving_created htime hdepth hroute hread hrecords hversion hcreated hupdated hstore
            fun htakes => saved_exchange hread hrecords htakes hupdated hresponse hsent
      · by_cases hupdate : ∃ id, e = .updateWorkflow id
        · obtain ⟨id, rfl⟩ := hupdate
          cases hdid with
          | nothing hwrites => cases hwrites
          | updatedWorkflow hread hfound hrecords hversion hcreated hupdated hstore =>
            exact saving_updated htime hdepth hroute hread hfound hrecords hversion hcreated hupdated
              hstore fun htakes => saved_exchange hread hrecords htakes hupdated hresponse hsent
        · have hother : ∀ id, e ≠ .updateWorkflow id := fun id h => hupdate ⟨id, h⟩
          rw [hdid.workflows hcreate hother]
          exact .none (Exchange.saves_of_other (by simpa [exchange, hroute] using hcreate)
            (by simpa [exchange, hroute] using hother))
    · have hafter := (tables_run outer s limit service.staleAfter).1
      rw [hrun] at hafter
      rw [hafter]
      exact .none (Exchange.saves_of_other (by simp [exchange, hroute]) (by simp [exchange, hroute]))

end Web

end Showrunner
