import Showrunner.Proofs.Dispatch.Escape
import Showrunner.Proofs.Store.Saving
import Showrunner.Proofs.Webhook.Spending
import Showrunner.Web.Handle

/-!
# How answers end

An answer that is a problem has a status of failure and leaves the store as it was before the request,
however far the request came. What holds of an answer that is a value is said by a postcondition, and one
lemma for each way to put answers together brings both to the endpoints. So each endpoint that can write
has one statement of what it did, which later proofs use in place of its definition. Only a dispatch may
have no end: then its run does not come back.
-/

namespace Showrunner

namespace Web

variable {σ α β : Type} {service : Service} {outer : Surroundings σ} {s : Stage σ} {store : Store}

/-! ## Postconditions of answers -/

/-- A problem has a response with a status of failure. -/
def Problem.Fails (problem : Problem) : Prop :=
  ∃ response, problem.response = some response ∧ 400 ≤ response.status

/-- A problem with issues has a status of failure. -/
theorem Problem.fails_invalid (issues : List Issue) : (Problem.invalid issues).Fails :=
  ⟨_, rfl, (by decide : 400 ≤ 422)⟩

/-- A fault has a status of failure. -/
theorem Problem.fails_fault (f : Fault) : (Problem.fault f).Fails := ⟨_, rfl, (by decide : 400 ≤ 500)⟩

/-- A refusal has the status that it is given. -/
theorem Problem.fails_refused {status : Nat} (h : 400 ≤ status) (detail : Json) :
    (Problem.refused status detail).Fails := ⟨_, rfl, h⟩

/-- An answer ends with a value and a stage of which something holds, or with a problem that has a status
of failure and with a store as it was. -/
def Answer.Ends (store : Store) (Q : Stage σ → α → Prop) (a : Answer σ α) : Prop :=
  match a.2 with
  | .ok v => Q a.1 v
  | .error problem => a.1.studio.store = store ∧ problem.Fails

variable {Q : Stage σ → α → Prop} {R : Stage σ → β → Prop} {a : Answer σ α}

/-- An answer that is a value has the postcondition of its answer. -/
theorem Answer.Ends.value (h : a.Ends store Q) {v : α} (hv : a.2 = .ok v) : Q a.1 v := by
  rwa [Ends, hv] at h

/-- An answer that is a problem leaves the store and has a status of failure. -/
theorem Answer.Ends.problem (h : a.Ends store Q) {problem : Problem} (hp : a.2 = .error problem) :
    a.1.studio.store = store ∧ problem.Fails := by
  rwa [Ends, hp] at h

/-- An answer ends with all that follows from how it ends. -/
theorem Answer.Ends.mono {Q' : Stage σ → α → Prop} (h : a.Ends store Q)
    (himp : ∀ s v, Q s v → Q' s v) : a.Ends store Q' := by
  rw [Ends] at h ⊢
  split
  · next v hv => exact himp _ _ (by rwa [hv] at h)
  · next problem hp => rwa [hp] at h

/-- What is written of a value is written of a value of which something holds. -/
theorem Answer.Ends.map (h : a.Ends store Q) (f : α → β) :
    (a.map f).Ends store fun s w => ∃ v, Q s v ∧ f v = w := by
  obtain ⟨s, v | v⟩ := a
  · exact h
  · exact ⟨v, h, rfl⟩

/-- An answer goes on from a value of which something holds. -/
theorem Answer.Ends.andThen (h : a.Ends store Q) {f : Stage σ → α → Answer σ β}
    (hf : ∀ s v, Q s v → (f s v).Ends store R) : (a.andThen f).Ends store R := by
  obtain ⟨s, v | v⟩ := a
  · exact h
  · exact hf s v h

/-- An answer that found nothing becomes a problem, so it has to have left the store. -/
theorem Answer.Ends.orMissing {a : Answer σ (Option α)} {Q : Stage σ → Option α → Prop}
    (h : a.Ends store Q) (words : String) (hnone : ∀ s, Q s none → s.studio.store = store) :
    (a.orMissing words).Ends store fun s v => Q s (some v) := by
  obtain ⟨s, v | _ | v⟩ := a
  · exact h
  · exact ⟨hnone s h, Problem.fails_refused (by decide) _⟩
  · exact h

/-- A value that the stage already has is an answer, and a fault with it a problem. -/
theorem ends_found (result : Except Fault α) :
    (s.found result).Ends s.studio.store fun s' v => s' = s ∧ result = .ok v := by
  cases result with
  | error fault => exact ⟨rfl, Problem.fails_fault fault⟩
  | ok v => exact ⟨rfl, rfl⟩

/-- An operation is answered if it succeeds, and its fault leaves the store. -/
theorem ends_kept {meaning : Fault → Problem} (hmeaning : ∀ f, (meaning f).Fails)
    {done : Studio × Except Fault α} (hdone : ∀ f, done.2 = .error f → done.1.store = store) :
    (s.kept meaning done).Ends store fun s' v =>
      s' = { s with studio := done.1 } ∧ done.2 = .ok v := by
  obtain ⟨studio, f | v⟩ := done
  · exact ⟨hdone f rfl, hmeaning f⟩
  · exact ⟨rfl, rfl⟩

/-- An operation on a store is answered if it succeeds, and then its store is kept. -/
theorem ends_keep {meaning : Fault → Problem} (hmeaning : ∀ f, (meaning f).Fails)
    {studio : Studio} (hstore : studio.store = store) (done : Except Fault (Store × α)) :
    (s.kept meaning (studio.keep done)).Ends store fun s' v => done = .ok (s'.studio.store, v) := by
  cases done with
  | error fault => exact ⟨hstore, hmeaning fault⟩
  | ok result => exact rfl

/-- What a request brings goes on if it is read, and else has a problem with a status of failure. -/
theorem ends_reading {read : Except Problem α} {f : α → Answer σ Json} {Q : Stage σ → Json → Prop}
    (hread : ∀ problem, read = .error problem → problem.Fails)
    (hf : ∀ v, read = .ok v → (f v).Ends s.studio.store Q) :
    (reading s read f).Ends s.studio.store Q := by
  cases read with
  | error problem => exact ⟨rfl, hread problem rfl⟩
  | ok v => exact hf v rfl

/-! ## Reading requests -/

/-- A value that is not valid has a status of failure. -/
theorem failed_accept {place : Step} {verdict : Verdict α} {problem : Problem}
    (h : accept place verdict = .error problem) : problem.Fails := by
  unfold accept at h
  split at h <;> cases h
  exact Problem.fails_invalid _

/-- A body that cannot be read has a status of failure. -/
theorem failed_readBody {r : Request} {problem : Problem} (h : r.readBody = .error problem) :
    problem.Fails := by
  unfold Request.readBody readDocument readPlain at h
  split at h
  · cases h
  · split at h <;> split at h <;> cases h
    · exact Problem.fails_invalid _
    · exact Problem.fails_refused (by decide) _
    · exact Problem.fails_fault _

/-- A value that a request has to bring and does not has a status of failure. -/
theorem failed_required {r : Request} {read : Reader α} {problem : Problem}
    (h : r.required read = .error problem) : problem.Fails := by
  unfold Request.required at h
  cases hbody : r.readBody with
  | error problem' =>
    rw [hbody] at h
    cases h
    exact failed_readBody hbody
  | ok body =>
    rw [hbody] at h
    cases body with
    | absent =>
      cases h
      exact Problem.fails_invalid _
    | given v => exact failed_accept h

/-- A value that a request may bring and that is not valid has a status of failure. -/
theorem failed_optional {r : Request} {read : Reader α} {problem : Problem}
    (h : r.optional read = .error problem) : problem.Fails := by
  unfold Request.optional at h
  cases hbody : r.readBody with
  | error problem' =>
    rw [hbody] at h
    cases h
    exact failed_readBody hbody
  | ok body =>
    rw [hbody] at h
    cases body with
    | absent => cases h
    | given v => exact failed_accept h

/-- A parameter that is not valid has a status of failure. -/
theorem failed_readParameter {t : Target} {name : String} {read : Reader α} {problem : Problem}
    (h : t.readParameter name read = .error problem) : problem.Fails := by
  unfold Target.readParameter at h
  split at h
  · cases h
  · split at h <;> cases h
    next haccept => exact failed_accept haccept

/-! ## Workflows -/

/-- A workflow is the record of a submission: it has the name and the board, the definition that the board
is compiled to under that name and the version of the workflow, and the warnings of a check without
errors. -/
structure Records (service : Service) (submission : Workflow.Submission) (w : Workflow) : Prop where
  name : w.name = submission.name
  board : w.board = submission.board
  definition : w.definition = submission.board.compile w.definition.id submission.name w.version
  errors : (submission.board.check (some service.registry)).errors = []
  warnings : w.warnings = (submission.board.check (some service.registry)).warnings

variable {submission : Workflow.Submission} {now : Stamp} {id : Text}

/-- A board without errors becomes the record of its submission. -/
theorem ends_recordOf (version : Int) (createdAt : Option Stamp) :
    (recordOf service submission id version createdAt now s).Ends s.studio.store fun s' w =>
      s'.studio.store = s.studio.store ∧ Records service submission w ∧ w.id = id ∧
        w.version = version ∧ w.createdAt = createdAt.getD now ∧ w.updatedAt = now := by
  unfold recordOf
  dsimp only
  split
  · next hnone =>
    exact ⟨rfl, ⟨rfl, rfl, rfl, List.isEmpty_iff.mp hnone, rfl⟩, rfl, rfl, rfl, rfl⟩
  · exact ⟨rfl, Problem.fails_refused (by decide) _⟩

/-- A submission that is saved as a new workflow is answered with its record, which the store created. -/
theorem ends_createWorkflow :
    (createWorkflow service submission now s).Ends s.studio.store fun s' v =>
      ∃ w, dumpWorkflow w = v ∧ Records service submission w ∧ w.version = 1 ∧ w.createdAt = now ∧
        w.updatedAt = now ∧ s.studio.store.createWorkflow w = .ok (s'.studio.store, w) := by
  have hrecord := @ends_recordOf _ service { s with studio := (s.studio.draw .workflow).1 } submission
    now (s.studio.draw .workflow).2 1 none
  refine hrecord.andThen fun s₁ w h => ?_
  obtain ⟨hstore, hrecords, -, hversion, hcreated, hupdated⟩ := h
  refine ((ends_keep Problem.fails_fault hstore _).map dumpWorkflow).mono fun s' v h => ?_
  obtain ⟨w', hdone, rfl⟩ := h
  obtain ⟨rfl, -⟩ := Store.createWorkflow_ok hdone
  rw [hstore] at hdone
  exact ⟨_, rfl, hrecords, hversion, hcreated, hupdated, hdone⟩

/-- A submission that is saved as the next version of a workflow is answered with its record, which the
store took in place of the workflow that it found. -/
theorem ends_updateWorkflow :
    (updateWorkflow service id submission now s).Ends s.studio.store fun s' v =>
      ∃ current w, s.studio.store.getWorkflow id = .ok (some current) ∧ dumpWorkflow w = v ∧
        Records service submission w ∧ w.id = id ∧ w.version = current.version + 1 ∧
        w.createdAt = current.createdAt ∧ w.updatedAt = now ∧
        s.studio.store.updateWorkflow id w = .ok (s'.studio.store, some w) := by
  have hfound := (ends_found (s.studio.store.getWorkflow id) (s := s)).orMissing noWorkflow
    fun s' h => congrArg (fun s => s.studio.store) h.1
  refine hfound.andThen fun s₁ current h => ?_
  obtain ⟨rfl, hcurrent⟩ := h
  refine (ends_recordOf (current.version + 1) (some current.createdAt)).andThen fun s₂ w h => ?_
  obtain ⟨hstore, hrecords, hid, hversion, hcreated, hupdated⟩ := h
  have hkept := @ends_keep _ _ s₂ _ _ Problem.fails_fault _ hstore (s₂.studio.store.updateWorkflow id w)
  refine ((hkept.orMissing noWorkflow fun s' h => ?_).map dumpWorkflow).mono fun s' v h => ?_
  · rw [Store.updateWorkflow_none hid h, hstore]
  · obtain ⟨w', hdone, rfl⟩ := h
    obtain ⟨rfl, -⟩ := Store.updateWorkflow_some hid hdone
    rw [hstore] at hdone
    exact ⟨current, _, hcurrent, rfl, hrecords, hid, hversion, hcreated, hupdated, hdone⟩

/-! ## Plans, tests and runs -/

/-- A draft is answered with the plan that the store created from it. -/
theorem ends_createPlan (draft : Plan.Draft) :
    ((s.kept .fault (s.studio.createPlan draft now)).map Plan.dump).Ends s.studio.store fun s' v =>
      ∃ p, s.studio.store.createPlan (s.studio.draw .plan).2 draft now = .ok (s'.studio.store, p) ∧
        p.dump = v :=
  (ends_keep Problem.fails_fault rfl _).map Plan.dump

/-- A plan that is put back on the schedule is answered as the store returned it. -/
theorem ends_requeuePlan (startsAt : Option Stamp) :
    (requeuePlan id startsAt s).Ends s.studio.store fun s' v =>
      ∃ p, s.studio.store.requeuePlan id startsAt = .ok (s'.studio.store, some p) ∧ p.dump = v := by
  have hfound := (ends_found (s.studio.store.getPlan id) (s := s)).orMissing noPlan
    fun s' h => congrArg (fun s => s.studio.store) h.1
  refine hfound.andThen fun s₁ p h => ?_
  obtain ⟨rfl, -⟩ := h
  split
  · refine (ends_keep Problem.fails_fault rfl _).andThen fun s' requeued h => ?_
    cases requeued with
    | none => exact ⟨Store.requeuePlan_none h, Problem.fails_refused (by decide) _⟩
    | some p => exact ⟨p, h, rfl⟩
  · exact ⟨rfl, Problem.fails_refused (by decide) _⟩

/-- Arming a test leaves the store alone. -/
theorem store_arm (studio : Studio) (token : Text) (workflowId nodeId : Json) (now : Stamp) :
    (studio.arm token workflowId nodeId now).1.store = studio.store := by
  unfold Studio.arm Studio.keepTests
  split
  · rfl
  · split
    · rfl
    · split <;> rfl

/-- A test that is armed is answered without a change of the store. -/
theorem ends_arm (token : Text) (asked : Webhook.ArmRequest) :
    ((s.kept armProblem (s.studio.arm token (.str asked.workflowId) (.str asked.nodeId) now)).map
      Webhook.Armed.dump).Ends s.studio.store fun s' _ => s'.studio.store = s.studio.store := by
  have hmeaning : ∀ f, (armProblem f).Fails := fun f => by
    cases f <;> first | exact Problem.fails_fault _ | exact Problem.fails_refused (by decide) _
  have hstore := store_arm s.studio token (.str asked.workflowId) (.str asked.nodeId) now
  refine ((ends_kept hmeaning fun f _ => hstore).map Webhook.Armed.dump).mono fun s' v h => ?_
  obtain ⟨told, ⟨rfl, -⟩, -⟩ := h
  exact hstore

/-- A capture is answered with the event that the store took. -/
theorem ends_capture (token : Text) (r : Request) :
    (capture token r now s).Ends s.studio.store fun s' v =>
      ∃ given e, s.studio.store.addEvent given = .ok (s'.studio.store, e) ∧ captured e = v := by
  have hmeaning : ∀ f, (captureProblem f).Fails := fun f => by
    cases f <;> first | exact Problem.fails_fault _ | exact Problem.fails_refused (by decide) _
  obtain ⟨hfailed, hstored⟩ := s.studio.store_capture token r.body r.keptHeaders now
  refine ((ends_kept hmeaning hfailed).map captured).mono fun s' v h => ?_
  obtain ⟨e, ⟨rfl, hdone⟩, rfl⟩ := h
  obtain ⟨given, hadd⟩ := hstored e hdone
  exact ⟨given, e, hadd, rfl⟩

/-- A dispatch is answered with the report of its run, and a run that fails leaves the stage; or the run does
not come back, and the dispatch has no end. -/
theorem ends_dispatch (limit : Option Int) :
    (dispatch service outer limit s).Ends s.studio.store (fun s' v =>
      ∃ report, Dispatch.run (host outer) (limit.getD service.batchLimit) service.staleAfter s =
        (s', some (.ok report)) ∧ report.dump = v) ∨
    ∃ s', Dispatch.run (host outer) (limit.getD service.batchLimit) service.staleAfter s = (s', none) ∧
      dispatch service outer limit s = (s', .error .endless) := by
  have hmeaning : ∀ f, (dispatchProblem f).Fails := fun f => by
    cases f <;> first | exact Problem.fails_fault _ | exact Problem.fails_refused (by decide) _
  rw [dispatch]
  rcases hrun : Dispatch.run (host outer) (limit.getD service.batchLimit) service.staleAfter s with
    ⟨s', _ | fault | report⟩
  · exact .inr ⟨s', rfl, rfl⟩
  · obtain rfl := Dispatch.eq_of_run_error rfl hrun
    exact .inl ⟨rfl, hmeaning fault⟩
  · exact .inl ⟨report, rfl, rfl⟩

/-! ## Endpoints -/

/-- Endpoints that can write to the store. -/
def Endpoint.writes : Endpoint → Bool
  | .createWorkflow | .updateWorkflow _ | .capture _ | .createPlan | .requeuePlan _ | .dispatch => true
  | _ => false

/-- What a request submits to be saved. -/
def Request.submission? (r : Request) : Option Workflow.Submission :=
  (r.required (Workflow.Submission.read .request "WorkflowSaveRequest")).toOption

/-- What an answer with a value did to the store: nothing, or one operation that succeeded and whose result
it tells. -/
inductive Did (service : Service) (outer : Surroundings σ) (r : Request) (s : Stage σ) :
    Endpoint → Stage σ → Json → Prop
  | nothing {e : Endpoint} {s' : Stage σ} {v : Json} (he : e.writes = false)
      (hstore : s'.studio.store = s.studio.store) : Did service outer r s e s' v
  | createdWorkflow {submission : Workflow.Submission} {w : Workflow} {s' : Stage σ}
      (hread : r.submission? = some submission) (hrecords : Records service submission w)
      (hversion : w.version = 1) (hcreated : w.createdAt = outer.now s.outside)
      (hupdated : w.updatedAt = outer.now s.outside)
      (hstore : s.studio.store.createWorkflow w = .ok (s'.studio.store, w)) :
      Did service outer r s .createWorkflow s' (dumpWorkflow w)
  | updatedWorkflow {submission : Workflow.Submission} {current w : Workflow} {s' : Stage σ}
      (hread : r.submission? = some submission)
      (hfound : s.studio.store.getWorkflow w.id = .ok (some current))
      (hrecords : Records service submission w) (hversion : w.version = current.version + 1)
      (hcreated : w.createdAt = current.createdAt) (hupdated : w.updatedAt = outer.now s.outside)
      (hstore : s.studio.store.updateWorkflow w.id w = .ok (s'.studio.store, some w)) :
      Did service outer r s (.updateWorkflow w.id) s' (dumpWorkflow w)
  | capturedEvent {token : Text} {given e : Webhook.Event} {s' : Stage σ}
      (hstore : s.studio.store.addEvent given = .ok (s'.studio.store, e)) :
      Did service outer r s (.capture token) s' (captured e)
  | createdPlan {id : Text} {draft : Plan.Draft} {now : Stamp} {p : Plan} {s' : Stage σ}
      (hstore : s.studio.store.createPlan id draft now = .ok (s'.studio.store, p)) :
      Did service outer r s .createPlan s' p.dump
  | requeuedPlan {id : Text} {startsAt : Option Stamp} {p : Plan} {s' : Stage σ}
      (hstore : s.studio.store.requeuePlan id startsAt = .ok (s'.studio.store, some p)) :
      Did service outer r s (.requeuePlan id) s' p.dump
  | dispatched {limit : Int} {report : Plan.Report} {s' : Stage σ}
      (hrun : Dispatch.run (host outer) limit service.staleAfter s = (s', some (.ok report))) :
      Did service outer r s .dispatch s' report.dump

/-- A submission is what a request has to bring to be saved. -/
theorem submission?_iff_required {r : Request} : r.submission? = some submission ↔
    r.required (Workflow.Submission.read .request "WorkflowSaveRequest") = .ok submission := by
  rw [Request.submission?]
  cases r.required (Workflow.Submission.read .request "WorkflowSaveRequest") <;> simp [Except.toOption]

/-- An endpoint that looks something up does nothing. -/
theorem ends_looked {r : Request} {e : Endpoint} {result : Except Fault β} {write : β → Json}
    (he : e.writes = false) :
    ((s.found result).map write).Ends s.studio.store (Did service outer r s e) := by
  refine ((ends_found result).map write).mono fun s' v h => ?_
  obtain ⟨_, ⟨rfl, -⟩, -⟩ := h
  exact .nothing he rfl

/-- An endpoint that looks up something that may be missing does nothing. -/
theorem ends_sought {r : Request} {e : Endpoint} {result : Except Fault (Option β)} {words : String}
    {write : β → Json} (he : e.writes = false) :
    (((s.found result).orMissing words).map write).Ends s.studio.store (Did service outer r s e) := by
  have hfound := (ends_found result (s := s)).orMissing words fun s' h => congrArg (·.studio.store) h.1
  refine (hfound.map write).mono fun s' v h => ?_
  obtain ⟨_, ⟨rfl, -⟩, -⟩ := h
  exact .nothing he rfl

/-- An answer leaves the store and has a status of failure, or did what it tells, unless it is that of a
dispatch whose run does not come back. -/
theorem ends_answer (token : Text) (r : Request) (target : Target) (e : Endpoint) :
    (answer service outer token r target s e).Ends s.studio.store (Did service outer r s e) ∨
      e = .dispatch ∧ ∃ limit s', Dispatch.run (host outer) limit service.staleAfter s = (s', none) ∧
        answer service outer token r target s e = (s', .error .endless) := by
  cases e with
  | health => exact .inl (.nothing rfl rfl)
  | catalog => exact .inl (.nothing rfl rfl)
  | compile => exact .inl (ends_reading (fun _ => failed_required) fun _ _ => .nothing rfl rfl)
  | createWorkflow =>
    refine .inl (ends_reading (fun _ => failed_required) fun submission hread => ?_)
    refine ends_createWorkflow.mono fun s' v h => ?_
    obtain ⟨w, rfl, hrecords, hversion, hcreated, hupdated, hstore⟩ := h
    exact .createdWorkflow (submission?_iff_required.mpr hread) hrecords hversion hcreated hupdated hstore
  | listWorkflows => exact .inl (ends_looked rfl)
  | getWorkflow id => exact .inl (ends_sought rfl)
  | updateWorkflow id =>
    refine .inl (ends_reading (fun _ => failed_required) fun submission hread => ?_)
    refine ends_updateWorkflow.mono fun s' v h => ?_
    obtain ⟨current, w, hfound, rfl, hrecords, rfl, hversion, hcreated, hupdated, hstore⟩ := h
    exact .updatedWorkflow (submission?_iff_required.mpr hread) hfound hrecords hversion hcreated hupdated hstore
  | getDefinition id => exact .inl (ends_sought rfl)
  | arm =>
    exact .inl (ends_reading (fun _ => failed_required) fun asked _ =>
      (ends_arm token asked).mono fun _ _ h => .nothing rfl h)
  | capture token' =>
    refine .inl ((ends_capture token' r).mono fun s' v h => ?_)
    obtain ⟨given, e, hstore, rfl⟩ := h
    exact .capturedEvent hstore
  | listEvents workflowId => exact .inl (ends_looked rfl)
  | createPlan =>
    refine .inl (ends_reading (fun _ => failed_required) fun draft _ => (ends_createPlan draft).mono ?_)
    rintro s' v ⟨p, hstore, rfl⟩
    exact .createdPlan hstore
  | listPlans => exact .inl (ends_reading (fun _ => failed_readParameter) fun _ _ => ends_looked rfl)
  | getPlan id => exact .inl (ends_sought rfl)
  | requeuePlan id =>
    refine .inl (ends_reading (fun _ => failed_optional) fun asked _ => (ends_requeuePlan _).mono ?_)
    rintro s' v ⟨p, hstore, rfl⟩
    exact .requeuedPlan hstore
  | dispatch =>
    cases hread : target.readParameter "limit" (Reader.integerBetween 1 500) with
    | error problem =>
      refine .inl ?_
      rw [answer, hread]
      exact ⟨rfl, failed_readParameter hread⟩
    | ok limit =>
      rw [answer, hread]
      refine (ends_dispatch limit).imp (fun h => h.mono ?_) fun ⟨s', hrun, hends⟩ => ⟨rfl, _, s', hrun, hends⟩
      rintro s' v ⟨report, hrun, rfl⟩
      exact .dispatched hrun

end Web

end Showrunner
