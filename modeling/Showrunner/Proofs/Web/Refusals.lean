import Showrunner.Proofs.Dispatch.Keeping
import Showrunner.Proofs.Web.Exchanges

/-!
# Requests that fail

A request that is answered with a status of failure leaves the tables as they were, whatever stopped it: its
route, its reading, a row that is missing, a fault of the store. For an answer that is written after the store
has taken the request can be sent, since the store takes no text that cannot.

The one exception is a run that reports a failure in words that cannot be sent. The store refuses to record
these words as well, so that the plans of the run stay as it leaves them while its report is lost.
-/

namespace Showrunner

namespace Store

variable {s s' : Store} {r : PlanRow} {id message : Text} {draft : Plan.Draft} {now : Stamp} {p : Plan}

/-- The texts of a plan's row are texts of characters. -/
def PlanRow.IsLegible (r : PlanRow) : Prop := ∀ t ∈ Web.planTexts r.toPlan, t.isScalar = true

/-- The rows of plans are legible. -/
def Legible (s : Store) : Prop := ∀ r ∈ s.planRows, r.IsLegible

/-- A new store is legible. -/
theorem legible_empty : empty.Legible := fun _ h => (nomatch h)

/-- A row without an error is legible if it was legible with one. -/
theorem PlanRow.IsLegible.withoutError (h : r.IsLegible) {r' : PlanRow}
    (horigin : r'.origin = r.origin) (herror : r'.lastError = none) : r'.IsLegible := by
  simp only [origin, Origin.mk.injEq] at horigin
  obtain ⟨hid, huser, hinfluencer, hlook, hprompt, htitle, hrrule, -⟩ := horigin
  refine List.forall_mem_append.mpr ⟨?_, by simp [toPlan, herror]⟩
  simpa [toPlan, hid, huser, hinfluencer, hlook, hprompt, htitle, hrrule] using
    (List.forall_mem_append.mp h).1

/-- A row with an error is legible if the error is a text of characters and the row was legible before. -/
theorem PlanRow.IsLegible.fail (h : r.IsLegible) (hmessage : message.isScalar = true) (time : Wall) :
    (r.fail message time).IsLegible :=
  List.forall_mem_append.mpr ⟨(List.forall_mem_append.mp h).1,
    fun _ ht => List.mem_singleton.mp ht ▸ hmessage⟩

/-- Rewriting rows to legible rows leaves a legible store. -/
theorem Legible.mapRows (h : s.Legible) {g : PlanRow → PlanRow}
    (hg : ∀ r, r.IsLegible → (g r).IsLegible) : (s.mapRows g).Legible := by
  intro r hr
  rw [planRows_mapRows] at hr
  obtain ⟨r₀, hr₀, rfl⟩ := List.mem_map.mp hr
  exact hg r₀ (h r₀ hr₀)

/-- A plan is created from texts of characters only, so its row is legible. -/
theorem Legible.createPlan (h : s.Legible) (hcreate : s.createPlan id draft now = .ok (s', p)) :
    s'.Legible ∧ ∀ t ∈ Web.planTexts p, t.isScalar = true := by
  obtain ⟨startsAt, createdAt, -, -, -, hrows, rfl⟩ := createPlan_ok hcreate
  have hnew : (PlanRow.new id draft startsAt createdAt).IsLegible := by
    unfold Store.createPlan at hcreate
    simp only [bind_eq_ok] at hcreate
    obtain ⟨_, -, _, -, _, -, _, hencodable, -⟩ := hcreate
    have htexts := fun t ht => Utf8.unencodable?_eq_none.mp (encodable_iff.mp hencodable t ht)
    exact List.forall_mem_append.mpr ⟨htexts, fun _ h => (nomatch h)⟩
  refine ⟨fun r hr => ?_, hnew⟩
  rw [hrows] at hr
  rcases List.mem_append.mp hr with hold | hadded
  · exact h r hold
  · exact List.mem_singleton.mp hadded ▸ hnew

/-- Putting a plan back on the schedule leaves a legible store. -/
theorem Legible.requeuePlan (h : s.Legible) {startsAt : Option Stamp} {result : Option Plan}
    (hrequeue : s.requeuePlan id startsAt = .ok (s', result)) :
    s'.Legible ∧ ∀ p ∈ result, ∀ t ∈ Web.planTexts p, t.isScalar = true := by
  obtain ⟨start, -, rfl, rfl⟩ := requeuePlan_ok hrequeue
  have hlegible : (s.mapRows fun r =>
      if r.id = id ∧ r.status.isRequeueable = true then r.requeue start else r).Legible := by
    refine h.mapRows fun r hr => ?_
    split
    · exact hr.withoutError rfl rfl
    · exact hr
  refine ⟨hlegible, fun p hp => ?_⟩
  split at hp
  · obtain ⟨r, hrow, rfl⟩ := Option.map_eq_some_iff.mp hp
    exact hlegible r (row?_some hrow).1
  · cases hp

/-- A claim leaves a legible store, and the plans that it returns are legible. -/
theorem Legible.claim (h : s.Legible) {limit : Int} {staleAfter : Option Int} {claimed : Claimed}
    (hclaim : s.claim limit now staleAfter = .ok claimed) :
    claimed.store.Legible ∧ ∀ p ∈ claimed.plans, ∀ t ∈ Web.planTexts p, t.isScalar = true := by
  obtain ⟨g, time, hg, hstore, hplans⟩ := claim_rewrites hclaim
  have hlegible : claimed.store.Legible := by
    rw [hstore]
    refine h.mapRows fun r hr => ?_
    rcases hg r with hsame | hclaimed
    · rwa [hsame]
    · rwa [hclaimed]
  refine ⟨hlegible, fun p hp => ?_⟩
  obtain ⟨r, hr, rfl⟩ := hplans p hp
  exact hlegible r hr

/-- Finishing a plan leaves a legible store. -/
theorem Legible.markCompleted (h : s.Legible) {next : Option Stamp} {took : Bool}
    (hdone : s.markCompleted id next now = .ok (s', took)) : s'.Legible := by
  obtain ⟨next', now', -, -, hfinish⟩ := markCompleted_ok hdone
  rw [(finish_ok hfinish).1]
  refine h.mapRows fun r hr => ?_
  split
  · exact hr.withoutError rfl rfl
  · exact hr

/-- A failure is recorded only in a text of characters, so its record leaves a legible store. -/
theorem Legible.markFailed (h : s.Legible) {took : Bool}
    (hdone : s.markFailed id message now = .ok (s', took)) : s'.Legible := by
  obtain ⟨now', -, hfinish⟩ := markFailed_ok hdone
  rw [(finish_ok hfinish).1]
  refine h.mapRows fun r hr => ?_
  split
  · unfold finish at hfinish
    simp only [bind_eq_ok] at hfinish
    obtain ⟨_, -, _, hencodable, -⟩ := hfinish
    exact hr.fail (Utf8.unencodable?_eq_none.mp (encodable_iff.mp hencodable _ List.mem_cons_self)) now'
  · exact hr

/-- A store whose rows of plans are those of a legible store is legible. -/
theorem Legible.of_plans (h : s.Legible) (hplans : s'.plans = s.plans) : s'.Legible := by
  rw [Legible, planRows, hplans]
  exact h

end Store

namespace Dispatch

variable {σ : Type} {host : Host σ}

/-- What is told about a plan that was finished is a text of characters. -/
theorem isScalar_successText (next : Option Stamp) : (successText next).isScalar = true := by
  cases next <;> simp [successText]

/-- The result of a success is a text of characters. -/
theorem isScalar_of_success {p : Plan} {s : σ} {result : Plan.Result}
    (h : (runPlan host p s).2 = some result) (hsuccess : result.status = .success) :
    result.message.isScalar = true := by
  rw [runPlan] at h
  split at h
  · cases h
  · next s' found _ =>
    cases h
    rcases found with fault | next
    · cases hsuccess
    · dsimp only [settle] at hsuccess ⊢
      split at hsuccess
      · cases hsuccess
      · exact isScalar_successText next
      · exact isScalar_successText next

end Dispatch

namespace Web

variable {σ : Type} {service : Service} {outer : Surroundings σ} {s s' : Stage σ} {r : Request}
  {e : Endpoint} {v : Json} {history : List Exchange} {limit : Int} {staleAfter : Option Int}
  {report : Plan.Report}

/-! ## Legible stores -/

variable (outer) in
/-- A run leaves a legible store. -/
theorem legible_run (hs : s.studio.store.Legible) (limit : Int) (staleAfter : Option Int) :
    (Dispatch.run (host outer) limit staleAfter s).1.studio.store.Legible :=
  (keeps_host (fun hs hclaim => (hs.claim hclaim).1) (fun hs hdone => hs.markCompleted hdone)
    fun hs hdone => hs.markFailed hdone).run limit staleAfter hs

/-- What an answer does leaves a legible store. -/
theorem Did.legible (h : Did service outer r s e s' v) (hs : s.studio.store.Legible) :
    s'.studio.store.Legible := by
  cases h with
  | nothing _ hstore => rwa [hstore]
  | createdWorkflow _ _ _ _ _ hstore =>
    obtain ⟨-, -, rows, createdAt, updatedAt, -, -, -, -, hafter⟩ := Store.createWorkflow_ok hstore
    exact hs.of_plans (by rw [hafter])
  | updatedWorkflow _ _ _ _ _ _ hstore =>
    obtain ⟨-, -, rows, updatedAt, -, -, -, hafter⟩ := Store.updateWorkflow_some rfl hstore
    exact hs.of_plans (by rw [hafter])
  | capturedEvent hstore =>
    obtain ⟨-, rows, time, -, -, -, hafter⟩ := Store.addEvent_ok hstore
    exact hs.of_plans (by rw [hafter])
  | createdPlan hstore => exact (hs.createPlan hstore).1
  | requeuedPlan hstore => exact (hs.requeuePlan hstore).1
  | @dispatched limit _ _ hrun =>
    have hafter := legible_run outer hs limit service.staleAfter
    rwa [hrun] at hafter

/-- Every stage that a service comes to has a legible store. -/
theorem ComesTo.legible (h : ComesTo service outer history s) : s.studio.store.Legible := by
  induction h with
  | start outside => exact Store.legible_empty
  | outside _ _ ih => exact ih
  | dropped _ hdrop ih =>
    rcases Store.dropTable_ok hdrop with rfl | rfl | rfl
    · exact ih.of_plans rfl
    · exact fun _ h => (nomatch h)
    · exact ih.of_plans rfl
  | @exchanged history s _ token r ih =>
    cases hroute : r.endpoint? with
    | none => rwa [handle_of_no_endpoint hroute]
    | some e =>
      rcases handle_cases service outer hroute token s with
        ⟨_, -, -, hstore⟩ | ⟨_, _, hdid, -⟩ | ⟨-, -, limit, hrun⟩
      · rwa [hstore]
      · exact hdid.legible ih
      · have hafter := legible_run outer ih limit service.staleAfter
        rwa [hrun] at hafter

/-! ## Answers that can be sent -/

/-- A report tells a failure in words that are no text of characters. -/
def TellsStray (report : Plan.Report) : Prop :=
  ∃ result ∈ report.results, result.status = .failed ∧ result.message.isScalar = false

/-- The results of plans that are worked through name these plans, and are texts of characters where they
tell a success. -/
theorem mem_runPlans {τ : Type} {host : Dispatch.Host τ} {plans : List Plan} {t : τ}
    {results : List Plan.Result} {result : Plan.Result}
    (hresults : (Dispatch.runPlans host plans t).2 = some results) (h : result ∈ results) :
    (∃ p ∈ plans, result.planId = p.id) ∧
      (result.status = .success → result.message.isScalar = true) := by
  induction plans generalizing t results with
  | nil =>
    cases hresults
    cases h
  | cons p rest ih =>
    rw [Dispatch.runPlans] at hresults
    split at hresults
    · cases hresults
    · next t' first hrun =>
      obtain ⟨more, hmore, rfl⟩ := Option.map_eq_some_iff.mp hresults
      rcases List.mem_cons.mp h with rfl | h
      · have hfirst := congrArg Prod.snd hrun
        exact ⟨⟨p, List.mem_cons_self, Dispatch.planId_runPlan hfirst⟩, Dispatch.isScalar_of_success hfirst⟩
      · obtain ⟨⟨p', hp', hid⟩, hsuccess⟩ := ih hmore h
        exact ⟨⟨p', .tail _ hp', hid⟩, hsuccess⟩

/-- The report of a run over a legible store can be sent, unless it tells a failure in words that are no
text of characters. -/
theorem isSendable_or_tellsStray (hs : s.studio.store.Legible)
    (h : Dispatch.run (host outer) limit staleAfter s = (s', some (.ok report))) :
    Response.isSendable report.dump = true ∨ TellsStray report := by
  obtain ⟨claimed, plans, results, hclaim, hresults, rfl⟩ := Dispatch.run_ok rfl h
  have hplans : ∀ p ∈ plans, p.id.isScalar = true := by
    rw [Stage.claim] at hclaim
    split at hclaim
    · next claimed' hclaimed =>
      cases hclaim
      exact fun p hp => (hs.claim hclaimed).2 p hp p.id List.mem_cons_self
    · cases hclaim
  refine or_iff_not_imp_right.mpr fun hspoken => ?_
  rw [isSendable_report, List.all_eq_true]
  intro result hresult
  obtain ⟨⟨p, hp, hid⟩, hsuccess⟩ := mem_runPlans hresults hresult
  have hmessage : result.message.isScalar = true := by
    cases hstatus : result.status with
    | success => exact hsuccess hstatus
    | failed =>
      by_contra hstray
      exact hspoken ⟨result, hresult, hstatus, Bool.eq_false_iff.mpr hstray⟩
  rw [hid, hplans p hp, hmessage]
  rfl

/-- What a writing endpoint answers can be sent, unless it is a report that tells a failure in words that are
no text of characters. -/
theorem Did.isSendable (h : Did service outer r s e s' v) (hwrites : e.writes = true)
    (hs : s.studio.store.Legible) :
    Response.isSendable v = true ∨ e = .dispatch ∧ ∃ limit report,
      Dispatch.run (host outer) limit service.staleAfter s = (s', some (.ok report)) ∧
        TellsStray report := by
  have hplan : ∀ {p : Plan}, (∀ t ∈ planTexts p, t.isScalar = true) →
      Response.isSendable p.dump = true := fun htexts => by
    rw [isSendable_plan, List.all_eq_true]
    exact htexts
  cases h with
  | nothing he _ => cases he.symm.trans hwrites
  | createdWorkflow _ hrecords _ _ _ hstore =>
    exact .inl (hrecords.isSendable (Store.createWorkflow_ok hstore).2.1)
  | updatedWorkflow _ _ hrecords _ _ _ hstore =>
    exact .inl (hrecords.isSendable (Store.updateWorkflow_some rfl hstore).2.1)
  | capturedEvent => exact .inl (by simp [captured])
  | createdPlan hstore => exact .inl (hplan (hs.createPlan hstore).2)
  | requeuedPlan hstore => exact .inl (hplan ((hs.requeuePlan hstore).2 _ rfl))
  | dispatched hrun =>
    rcases isSendable_or_tellsStray hs hrun with hsendable | hstray
    · exact .inl hsendable
    · exact .inr ⟨rfl, _, _, hrun, hstray⟩

/-- On every stage that a service comes to, a request that is answered with a status of failure leaves the
tables as they were. The one exception is a dispatch whose report tells a failure in words that are no text of
characters: then the plans are as the run leaves them, and the response is a failure. -/
theorem tables_of_failed (hs : ComesTo service outer history s) (token : Text) (r : Request)
    {response : Response} (hresponse : (handle service outer token r s).2 = some response)
    (hstatus : 400 ≤ response.status) :
    (handle service outer token r s).1.studio.store = s.studio.store ∨
      r.endpoint? = some .dispatch ∧ response.status = 500 ∧
        (handle service outer token r s).1.studio.store.workflows = s.studio.store.workflows ∧
        (handle service outer token r s).1.studio.store.events = s.studio.store.events ∧
        ∃ limit report, Dispatch.run (host outer) limit service.staleAfter s =
          ((handle service outer token r s).1, some (.ok report)) ∧ TellsStray report := by
  cases hroute : r.endpoint? with
  | none => exact .inl (by rw [handle_of_no_endpoint hroute])
  | some e =>
    rcases handle_cases service outer hroute token s with
      ⟨_, -, -, hstore⟩ | ⟨v, sent, hdid, hsome, hsent⟩ | ⟨-, hnone, -⟩
    · exact .inl hstore
    · obtain rfl := Option.some.inj (hresponse.symm.trans hsome)
      split at hsent
      · have hfine := (answer?_eq_some.mp hsent).1
        omega
      · next hunsendable =>
        cases hwrites : e.writes with
        | false =>
          cases hdid with
          | nothing _ hstore => exact .inl hstore
          | _ => cases hwrites
        | true =>
          rcases hdid.isSendable hwrites hs.legible with hsendable | ⟨rfl, limit, report, hrun, hstray⟩
          · exact absurd hsendable hunsendable
          · obtain ⟨hworkflows, hevents⟩ := tables_run outer s limit service.staleAfter
            rw [hrun] at hworkflows hevents
            exact .inr ⟨rfl, hsent, hworkflows, hevents, limit, report, hrun, hstray⟩
    · cases hnone.symm.trans hresponse

/-- At the second hour every plan fails to render, in words that are half of a pair. -/
def stammering : Surroundings Unit :=
  { now := fun _ => .ofHours 2
    dates := fun _ => .on (Stamp.ofHours 2).wall.date
    render := fun _ outside => (outside, .error (.runtime [.surrogate 0])) }

/-- A request for a plan that starts at the first hour. -/
def planRequest : Request :=
  sampleRequest "POST" "/content-plans" (.obj [(text "user_id", .str (text "user")),
    (text "influencer_id", .str (text "influencer")), (text "look_id", .str (text "look")),
    (text "prompt", .str (text "prompt")), (text "starts_at", .str (text "0001-01-01T01:00:00Z"))])

/-- A service with a plan that is due. -/
def planned : Stage Unit :=
  (handle sampleService stammering [] planRequest ⟨sampleService.newStudio, ()⟩).1

/-- A scheduled plan does not go back on the schedule, which a request for it is told with the tables as
they were. -/
theorem planned_not_requeued :
    let r := sampleRequest "POST" "/content-plans/plan-1/requeue" .null
    let (s, response) := handle sampleService stammering [] r planned
    planned.studio.store.planRows.map (·.status) = [.scheduled] ∧
      response.map Response.status = some 409 ∧ s.studio.store = planned.studio.store := by
  intro r
  have hplanned : ComesTo sampleService stammering _ planned := (ComesTo.start ()).exchanged [] planRequest
  have hstatus : (handle sampleService stammering [] r planned).2.map Response.status = some 409 := by
    decide +kernel
  refine ⟨by decide +kernel, hstatus, ?_⟩
  obtain ⟨response, hresponse, hconflict⟩ := Option.map_eq_some_iff.mp hstatus
  have hfailed : 400 ≤ response.status := hconflict ▸ by decide
  exact (tables_of_failed hplanned [] r hresponse hfailed).resolve_right fun h =>
    absurd h.1 (by decide +kernel)

/-- A dispatch of a due plan that fails to render in words that are half of a pair is answered with a
failure, and leaves the plan claimed. -/
theorem stammered_dispatch_claims :
    let (s, response) := handle sampleService stammering [] (sampleRequest "POST" "/dispatch" .null) planned
    (∃ history, ComesTo sampleService stammering history planned) ∧
      response.map Response.status = some 500 ∧
      planned.studio.store.planRows.map (·.status) = [.scheduled] ∧
      s.studio.store.planRows.map (·.status) = [.processing] :=
  ⟨⟨_, (ComesTo.start ()).exchanged [] planRequest⟩, by decide +kernel, by decide +kernel,
    by decide +kernel⟩

end Web

end Showrunner
