import Showrunner.Proofs.Web.Answers
import Showrunner.Proofs.Web.Routes
import Showrunner.Proofs.Web.Sending

/-!
# Exchanges with a service

A request that has a route is answered at its endpoint, and the response tells the answer: a document with
status 200 if the answer is a value that can be sent, and a status of failure otherwise. Only a dispatch
whose run does not come back has no response. A request without a route leaves the stage alone. A service
comes to a stage by exchanges, between which the outside changes as it likes and tables are dropped.
-/

namespace Showrunner

/-- What dropping a table leaves. -/
theorem Store.dropTable_ok {s s' : Store} {name : Text} (h : s.dropTable name = .ok s') :
    s' = { s with workflows := none } ∨ s' = { s with plans := none } ∨
      s' = { s with events := none } := by
  unfold dropTable at h
  split at h
  · obtain ⟨_, -, h⟩ := bind_eq_ok.mp h
    cases h
    exact .inl rfl
  · split at h
    · obtain ⟨_, -, h⟩ := bind_eq_ok.mp h
      cases h
      exact .inr (.inl rfl)
    · split at h
      · obtain ⟨_, -, h⟩ := bind_eq_ok.mp h
        cases h
        exact .inr (.inr rfl)
      · cases h

namespace Web

variable {σ : Type} {service : Service} {outer : Surroundings σ} {s s' : Stage σ} {r : Request}
  {e : Endpoint} {token : Text} {v : Json} {problem : Problem}

/-- The endpoint to which the route of a request leads. -/
def Request.endpoint? (r : Request) : Option Endpoint :=
  match destination r.method (Target.read r.target).path with
  | .endpoint e => some e
  | _ => none

/-- The document with which a response answers. -/
def Response.answer? (response : Response) : Option Json :=
  match response.content with
  | .document v => if response.status = 200 then some v else none
  | .plain _ => none

/-- A request came at a time and had a response, unless it took for ever. -/
structure Exchange where
  time : Stamp
  request : Request
  response : Option Response

namespace Exchange

/-- The document with which a request was answered. -/
def answer? (x : Exchange) : Option Json := x.response.bind Response.answer?

/-- The status with which a request was answered. -/
def status? (x : Exchange) : Option Nat := x.response.map Response.status

end Exchange

/-- The exchange of a request on a stage. -/
def exchange (service : Service) (outer : Surroundings σ) (token : Text) (r : Request) (s : Stage σ) :
    Exchange := ⟨outer.now s.outside, r, (handle service outer token r s).2⟩

/-- A new service comes to a stage by exchanges, whatever happens outside and whichever tables are dropped
between them. -/
inductive ComesTo (service : Service) (outer : Surroundings σ) : List Exchange → Stage σ → Prop
  | start (outside : σ) : ComesTo service outer [] ⟨service.newStudio, outside⟩
  | outside {history : List Exchange} {s : Stage σ} (before : ComesTo service outer history s)
      (outside : σ) : ComesTo service outer history { s with outside := outside }
  | dropped {history : List Exchange} {s : Stage σ} (before : ComesTo service outer history s)
      {name : Text} {store : Store} (hdrop : s.studio.store.dropTable name = .ok store) :
      ComesTo service outer history { s with studio := { s.studio with store := store } }
  | exchanged {history : List Exchange} {s : Stage σ} (before : ComesTo service outer history s)
      (token : Text) (r : Request) :
      ComesTo service outer (history ++ [exchange service outer token r s])
        (handle service outer token r s).1

/-- A service for exchanges of one's own. -/
def sampleService : Service :=
  { registry := Registry.empty.withBuiltins []
    render := ⟨[], [], .null⟩
    batchLimit := 20
    staleAfter := none
    testsUrl := text "tests"
    testsLifetime := 7200000000
    origins := ⟨[]⟩ }

/-- A request that brings a document. -/
def sampleRequest (method target : String) (v : Json) : Request :=
  .arriving (text method) (text target) [(text "content-type", text "application/json")]
    (Utf8.encode v.writeText)

/-! ## Routes -/

/-- The route of a request leads to its endpoint. -/
theorem destination_of_endpoint (h : r.endpoint? = some e) :
    destination r.method (Target.read r.target).path = .endpoint e := by
  unfold Request.endpoint? at h
  split at h
  · next hdestination => rw [hdestination, Option.some.inj h]
  · cases h

/-- A request that is routed to an endpoint asks neither for a preflight nor for a head. -/
theorem method_of_endpoint (h : r.endpoint? = some e) :
    r.method ≠ text "OPTIONS" ∧ r.method ≠ text "HEAD" := by
  obtain ⟨route, hroute, hmethod, -⟩ := exists_route (destination_of_endpoint h)
  have hmethods : ∀ route ∈ Route.all,
      text route.method ≠ text "OPTIONS" ∧ text route.method ≠ text "HEAD" := by decide
  exact hmethod ▸ hmethods route hroute

/-- Only a request with the method for a preflight is one. -/
theorem preflight?_eq_none (h : r.method ≠ text "OPTIONS") : service.origins.preflight? r = none := by
  simp [Origins.preflight?, h]

/-- A request that is routed to an endpoint is answered there. -/
theorem handle_of_endpoint (h : r.endpoint? = some e) :
    handle service outer token r s =
      ((answer service outer token r (Target.read r.target) s e).1,
        (responseOf (answer service outer token r (Target.read r.target) s e).2).map (send service r)) := by
  rw [handle, preflight?_eq_none (method_of_endpoint h).1, routed]
  dsimp only
  rw [destination_of_endpoint h]

/-- A request that is routed to no endpoint leaves the stage alone. -/
theorem handle_of_no_endpoint (h : r.endpoint? = none) : (handle service outer token r s).1 = s := by
  unfold Request.endpoint? at h
  rw [handle]
  split
  · rfl
  · unfold routed
    dsimp only
    split at h
    · cases h
    · next hother =>
      split
      · next found hdestination => exact absurd hdestination (hother found)
      all_goals rfl

/-! ## Responses -/

/-- A response is sent with its content, unless it cannot be. -/
theorem send_of_canBeSent {response : Response} (hmethod : r.method ≠ text "HEAD")
    (hstatus : response.status ≠ 500) (hsent : response.canBeSent = true) :
    (send service r response).status = response.status ∧
      (send service r response).content = response.content := by
  rw [send, if_neg hmethod, if_neg (by simp [hstatus, hsent]), Origins.mark]
  split <;> exact ⟨rfl, rfl⟩

/-- A response that cannot be sent becomes a failure. -/
theorem send_of_unsendable {response : Response}
    (h : response.status = 500 ∨ response.canBeSent = false) :
    (send service r response).status = 500 := by
  have hfails : response.status = 500 ∨ (!response.canBeSent) = true := by simpa using h
  rw [send, if_pos hfails]
  split <;> rfl

/-- A response with a status of failure has one when it is sent. -/
theorem failed_send {response : Response} (h : 400 ≤ response.status) :
    400 ≤ (send service r response).status := by
  have hmarked : (service.origins.mark r response).status = response.status := by
    rw [Origins.mark]
    split <;> rfl
  have hsent : 400 ≤ (if response.status = 500 ∨ !response.canBeSent then Response.failure
      else service.origins.mark r response).status := by
    split
    · exact (by decide : 400 ≤ 500)
    · exact hmarked ▸ h
  rw [send]
  split
  · exact hsent
  · exact hsent

/-- A response answers with a document if it has status 200 and that content. -/
theorem answer?_eq_some {response : Response} :
    response.answer? = some v ↔ response.status = 200 ∧ response.content = .document v := by
  obtain ⟨status, content | t, headers⟩ := response
  · simp [Response.answer?]
  · simp [Response.answer?]

/-- A request at an endpoint is answered with the value of its answer, if that can be sent. -/
theorem answer?_of_value (h : r.endpoint? = some e)
    (hvalue : (answer service outer token r (Target.read r.target) s e).2 = .ok v)
    (hsendable : Response.isSendable v = true) :
    (handle service outer token r s).2.bind Response.answer? = some v := by
  rw [handle_of_endpoint h, hvalue]
  exact answer?_eq_some.mpr (@send_of_canBeSent service r (.ofDocument 200 v [])
    (method_of_endpoint h).2 (show 200 ≠ 500 by decide) hsendable)

/-- The record of a submission that the store takes can be sent. -/
theorem Records.isSendable {submission : Workflow.Submission} {w : Workflow}
    (h : Records service submission w) (htakes : Store.Takes w) :
    Response.isSendable (dumpWorkflow w) = true := by
  refine isSendable_dumpWorkflow htakes ?_
  rw [h.warnings]
  exact List.forall_mem_map.mpr fun warning _ => warning.isScalar_message

variable (service outer) in
/-- A request at an endpoint fails and leaves the store as it was, or it did what its answer tells, and is
answered so if that can be sent. Otherwise it is a dispatch whose run does not come back, and has no response. -/
theorem handle_cases (h : r.endpoint? = some e) (token : Text) (s : Stage σ) :
    (∃ response, (handle service outer token r s).2 = some response ∧ 400 ≤ response.status ∧
      (handle service outer token r s).1.studio.store = s.studio.store) ∨
    (∃ v response, Did service outer r s e (handle service outer token r s).1 v ∧
      (handle service outer token r s).2 = some response ∧
      if Response.isSendable v then response.answer? = some v else response.status = 500) ∨
    e = .dispatch ∧ (handle service outer token r s).2 = none ∧
      ∃ limit, Dispatch.run (host outer) limit service.staleAfter s =
        ((handle service outer token r s).1, none) := by
  rcases @ends_answer _ service outer s token r (Target.read r.target) e with
    hends | ⟨rfl, limit, s', hrun, hanswer⟩
  · cases hresult : (answer service outer token r (Target.read r.target) s e).2 with
    | error problem =>
      obtain ⟨hstore, response, hresponse, hfails⟩ := hends.problem hresult
      rw [handle_of_endpoint h, hresult, responseOf, hresponse]
      exact .inl ⟨_, rfl, failed_send hfails, hstore⟩
    | ok v =>
      have hdid := hends.value hresult
      refine .inr (.inl ⟨v, send service r (.ofDocument 200 v []), by rwa [handle_of_endpoint h], ?_, ?_⟩)
      · rw [handle_of_endpoint h, hresult]
        rfl
      · split
        · next hsendable =>
          have hanswer := answer?_of_value h hresult hsendable
          rwa [handle_of_endpoint h, hresult] at hanswer
        · next hunsendable => exact send_of_unsendable (.inr (Bool.eq_false_iff.mpr hunsendable))
  · refine .inr (.inr ⟨rfl, ?_, limit, ?_⟩)
    · rw [handle_of_endpoint h, hanswer]
      rfl
    · rw [handle_of_endpoint h, hanswer, hrun]

end Web

end Showrunner
