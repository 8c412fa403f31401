import Showrunner.Proofs.Web.Submissions
import Showrunner.Proofs.Webhook.Listing
import Showrunner.Proofs.Webhook.Spending

/-!
# Captured events that are asked for

A service answers for the captured events of a workflow, or of one of its nodes, with the events that were
captured since it was new: all of them and no others, the latest first. The payload of each is what the
request brought. An answer is sent only if its texts have encodings, though, and a document can spell half
of a pair in a string. So one request with such a document keeps the events of its workflow from being
sent, from then on and together with the events that were captured before.
-/

namespace Showrunner

namespace Json

/-- Leaving out numbers that are not finite leaves the texts of a value. -/
theorem texts_finiteOnly (v : Json) : v.finiteOnly.texts = v.texts := by
  induction v with
  | null | bool | int | str => rfl
  | float x =>
    rw [finiteOnly]
    split <;> rfl
  | arr items ih =>
    rw [finiteOnly, texts, texts, finiteItems_eq, itemTexts_eq, itemTexts_eq, List.flatMap_map]
    exact List.flatMap_congr ih
  | obj fields ih =>
    rw [finiteOnly, texts, texts, finiteFields_eq, fieldTexts_eq, fieldTexts_eq, List.flatMap_map]
    exact List.flatMap_congr fun field hfield => congrArg (field.1 :: ·) (ih field hfield)

end Json

namespace Webhook

/-- A listing shows an event if it is one of the workflow and, where one is given, of the node. -/
def Event.belongs (workflowId : Text) (nodeId : Option Text) (e : Event) : Bool :=
  e.workflowId = workflowId && nodeId.all (e.nodeId = ·)

/-- Events in the order of a listing: the latest first, and those of one time as they came. -/
def latestFirst (events : List Event) : List Event :=
  events.mergeSort fun a b => b.capturedAt.instant ≤ a.capturedAt.instant

/-- An event that documents spell as it is, with a time that is universal, and with ids and headers that are
texts of characters. -/
structure Event.Storable (e : Event) : Prop where
  payload : e.payload.Fits Json.Limits.outside.digits Json.Limits.outside.depth
  headers : Json.FieldsFit none 0 (headerFields e.headers)
  time : e.capturedAt = .utc e.capturedAt.wall
  ids : e.id.isScalar = true ∧ e.workflowId.isScalar = true ∧ e.nodeId.isScalar = true
  names : ∀ header ∈ e.headers, header.1.isScalar = true ∧ header.2.isScalar = true

end Webhook

namespace Store

open Webhook

variable {s s' : Store} {e : Event} {events : List Event}

/-- Creating a plan leaves the events alone. -/
theorem events_createPlan {id : Text} {draft : Plan.Draft} {now : Stamp} {p : Plan}
    (h : s.createPlan id draft now = .ok (s', p)) : s'.events = s.events := by
  unfold createPlan at h
  simp only [bind_eq_ok] at h
  obtain ⟨_, -, _, -, _, -, _, -, h⟩ := h
  split at h
  · obtain ⟨_, hfail, -⟩ := bind_eq_ok.mp h
    cases hfail
  · cases h
    rfl

/-- The row of an event. -/
def EventRow.of (e : Event) : EventRow := .ofEvent e e.capturedAt.wall

/-- A storable event is read from its row. -/
theorem toEvent_of (h : e.Storable) : (EventRow.of e).toEvent = .ok e := by
  have hspelled : SpelledAs e.headers e.headers := by
    obtain ⟨spelled, hspelled⟩ := exists_spelledAs e.headers
    exact hspelled.eq h.headers ▸ hspelled
  rw [EventRow.of, toEvent_ofEvent h.payload.sized hspelled, h.payload.respelled, ← h.time]

/-- A store has the rows of events and no others. -/
structure Keeps (s : Store) (events : List Event) : Prop where
  rows : s.events = some (events.map EventRow.of)
  storable : ∀ e ∈ events, e.Storable

/-- Adding a storable event. -/
theorem Keeps.addEvent (h : s.Keeps events) {e' : Event} (hadd : s.addEvent e = .ok (s', e'))
    (he : e.Storable) : s'.Keeps (events ++ [e]) where
  rows := by
    obtain ⟨-, rows, time, hrows, htime, -, rfl⟩ := addEvent_ok hadd
    obtain rfl := Option.some.inj (h.rows.symm.trans hrows)
    have hwall : time = e.capturedAt.wall := by
      rw [he.time, instantOf_utc] at htime
      exact (Except.ok.inj htime).symm
    rw [hwall, List.map_append]
    rfl
  storable := List.forall_mem_append.mpr ⟨h.storable, List.forall_mem_singleton.mpr he⟩

/-- The events that a store keeps are listed, if the listing can be asked for. -/
theorem Keeps.listEvents (h : s.Keeps events) {workflowId : Text} {nodeId : Option Text}
    (hids : encodable (workflowId :: nodeId.toList) = .ok ()) :
    s.listEvents workflowId nodeId = .ok (latestFirst (events.filter (·.belongs workflowId nodeId))) := by
  have hstorable : ∀ e ∈ events.filter (·.belongs workflowId nodeId), e.Storable := fun e he =>
    h.storable e (List.mem_of_mem_filter he)
  have hsorted : ((events.filter (·.belongs workflowId nodeId)).map EventRow.of).mergeSort
      EventRow.comesFirst =
        (latestFirst (events.filter (·.belongs workflowId nodeId))).map EventRow.of := by
    refine (List.map_mergeSort fun a ha b hb => ?_).symm
    rw [(hstorable a ha).time, (hstorable b hb).time, Stamp.instant_utc, Stamp.instant_utc]
    exact decide_eq_decide.mpr Int.ofNat_le
  have hread : ∀ e ∈ latestFirst (events.filter (·.belongs workflowId nodeId)),
      (EventRow.of e).toEvent = .ok e := fun e he => toEvent_of (hstorable e (List.mem_mergeSort.mp he))
  rw [listEvents_eq h.rows, hids, List.filter_map]
  change (List.mergeSort (List.map EventRow.of (List.filter (Event.belongs workflowId nodeId) events))
    EventRow.comesFirst).mapM EventRow.toEvent = _
  rw [hsorted, List.mapM_map]
  exact (mapM_eq_ok_map (g := id) hread).trans (by rw [List.map_id])

end Store

namespace Studio

open Webhook

variable {s after : Studio} {token : Text} {body : List UInt8} {now : Stamp} {e : Event}

/-- A capture that succeeds made its event for a live session, and the store took it. -/
theorem exists_of_capture_ok {fields : Fields} (h : s.capture token body fields now = (after, .ok e)) :
    ∃ session, eventOf session (s.draw .event).2 body fields now = .ok e ∧
      s.store.addEvent e = .ok (after.store, e) := by
  by_cases hwaits : ∃ session, s.cache.find? token = some session ∧ session.isLive now = true
  · obtain ⟨session, hfound, hlive⟩ := hwaits
    rw [capture_eq hfound hlive] at h
    cases hdone : eventOf session (s.draw .event).2 body fields now >>= s.store.addEvent with
    | error fault =>
      rw [hdone] at h
      cases h
    | ok done =>
      rw [hdone] at h
      obtain ⟨given, hevent, hadd⟩ := bind_eq_ok.mp hdone
      cases h
      obtain ⟨hsame, -⟩ := Store.addEvent_ok hadd
      rw [← hsame] at hevent hadd
      exact ⟨session, hevent, hadd⟩
  · have hdead : ∀ session, s.cache.find? token = some session → session.isLive now = false :=
      fun session hfound => Bool.eq_false_iff.mpr fun hlive => hwaits ⟨session, hfound, hlive⟩
    obtain ⟨fault, hcapture⟩ := capture_of_not_live hdead body fields
    rw [hcapture] at h
    cases h

/-- Headers of characters are such under their lowered names. -/
theorem isScalar_lowerNames {headers lowered : List (Text × Text)}
    (h : ∀ header ∈ headers, header.1.isScalar = true ∧ header.2.isScalar = true)
    (hlowered : lowerNames (headerFields headers) = headerFields lowered) :
    ∀ header ∈ lowered, header.1.isScalar = true ∧ header.2.isScalar = true := by
  have hfields : ∀ field ∈ lowerNames (headerFields headers),
      field.1.isScalar = true ∧ ∀ t, field.2 = .str t → t.isScalar = true := by
    refine List.foldlRecOn (motive := fun fields : Fields => ∀ field ∈ fields,
      field.1.isScalar = true ∧ ∀ t, field.2 = .str t → t.isScalar = true) (headerFields headers) _
      (fun _ h => absurd h List.not_mem_nil) fun fields hfields sent hsent field hfield => ?_
    obtain ⟨header, hheader, rfl⟩ := List.mem_map.mp hsent
    rcases Json.mem_put hfield with rfl | hfield
    · exact ⟨Text.isScalar_lower (h header hheader).1, fun t ht => Json.str.inj ht ▸ (h header hheader).2⟩
    · exact hfields field hfield
  intro header hheader
  have hfield := hfields (header.1, .str header.2)
    (hlowered ▸ List.mem_map_of_mem (f := fun header : Text × Text => (header.1, Json.str header.2)) hheader)
  exact ⟨hfield.1, hfield.2 header.2 rfl⟩

/-- A captured event is storable if the time is universal and the headers are texts of characters. -/
theorem storable_of_capture {headers : List (Text × Text)} {time : Wall} (hnow : now = .utc time)
    (hheaders : ∀ header ∈ headers, header.1.isScalar = true ∧ header.2.isScalar = true)
    (h : s.capture token body (headerFields headers) now = (after, .ok e)) : e.Storable := by
  obtain ⟨session, hevent, hadd⟩ := exists_of_capture_ok h
  obtain ⟨payload, lowered, hkeeps, hlowered, rfl⟩ := eventOf_eq_ok.mp hevent
  obtain ⟨-, -, -, -, -, hids, -⟩ := Store.addEvent_ok hadd
  simp only [Store.encodable_iff, Utf8.unencodable?_eq_none, List.forall_mem_cons] at hids
  have hunpaired : AreUnpaired headers := fun header hheader =>
    ⟨Text.isUnpaired_of_isScalar (hheaders header hheader).1,
      Text.isUnpaired_of_isScalar (hheaders header hheader).2⟩
  exact
    { payload := Payload.fits_of_keeps hkeeps
      headers := hlowered ▸ fieldsFit_lowerNames hunpaired none 0
      time := by rw [hnow]; rfl
      ids := ⟨hids.1, hids.2.1, hids.2.2.1⟩
      names := isScalar_lowerNames hheaders hlowered }

end Studio

namespace Web

open Response Webhook

variable {σ : Type} {service : Service} {outer : Surroundings σ} {s s' : Stage σ} {r : Request}
  {endpoint : Endpoint} {v : Json} {token : Text} {e : Event} {events : List Event} {workflowId : Text}

/-- The headers of a request are texts of characters, as all are that arrive as octets. -/
def Request.IsPlain (r : Request) : Prop :=
  ∀ header ∈ r.headers, header.1.isScalar = true ∧ header.2.isScalar = true

/-- The event that is captured from a request, if it asks for a test and the capture succeeds. -/
def capturedFrom (outer : Surroundings σ) (r : Request) (s : Stage σ) : List Event :=
  match r.endpoint? with
  | some (.capture token) =>
      (s.studio.capture token r.body r.keptHeaders (outer.now s.outside)).2.toOption.toList
  | _ => []

/-- A new service comes to a stage by exchanges from which events are captured, whatever happens outside
between them. -/
inductive Collected (service : Service) (outer : Surroundings σ) : List Event → Stage σ → Prop
  | start (outside : σ) : Collected service outer [] ⟨service.newStudio, outside⟩
  | outside {events : List Event} {s : Stage σ} (before : Collected service outer events s)
      (outside : σ) : Collected service outer events { s with outside := outside }
  | exchanged {events : List Event} {s : Stage σ} (before : Collected service outer events s)
      (token : Text) {r : Request} (hplain : r.IsPlain) :
      Collected service outer (events ++ capturedFrom outer r s) (handle service outer token r s).1

/-! ## What exchanges do to the events -/

/-- Headers that are kept or left out one after the other are among the headers. -/
theorem foldl_subset {keep : Headers → Text × Text → Headers} {headers : Headers}
    (hkeep : ∀ kept header, keep kept header ⊆ kept ++ [header]) {kept rest : Headers}
    (hkept : kept ⊆ headers) (hrest : rest ⊆ headers) : rest.foldl keep kept ⊆ headers := by
  induction rest generalizing kept with
  | nil => exact hkept
  | cons header rest ih =>
    obtain ⟨hheader, hrest⟩ := List.cons_subset.mp hrest
    have hboth : kept ++ [header] ⊆ headers :=
      List.append_subset.mpr ⟨hkept, List.cons_subset.mpr ⟨hheader, List.nil_subset _⟩⟩
    exact ih (List.Subset.trans (hkeep kept header) hboth) hrest

/-- The headers that an event keeps are headers of its request. -/
theorem firsts_subset (headers : Headers) : headers.firsts ⊆ headers := by
  refine foldl_subset (fun kept header => ?_) (List.nil_subset _) (List.Subset.refl _)
  dsimp only
  split
  · exact List.subset_append_left _ _
  · exact List.Subset.refl _

/-- An endpoint that captures no event leaves the events alone. -/
theorem Did.events_eq (h : Did service outer r s endpoint s' v) (hother : ∀ token, endpoint ≠ .capture token) :
    s'.studio.store.events = s.studio.store.events := by
  cases h with
  | nothing _ hstore => rw [hstore]
  | createdWorkflow _ _ _ _ _ hstore =>
    obtain ⟨-, -, _, _, _, -, -, -, -, hafter⟩ := Store.createWorkflow_ok hstore
    rw [hafter]
  | updatedWorkflow _ _ _ _ _ _ hstore =>
    obtain ⟨-, _, _, -, -, -, hafter⟩ := Store.updateWorkflow_ok rfl hstore
    rw [hafter]
  | capturedEvent => exact absurd rfl (hother _)
  | createdPlan hstore => exact Store.events_createPlan hstore
  | requeuedPlan hstore =>
    obtain ⟨start, -, hafter, -⟩ := Store.requeuePlan_ok hstore
    rw [hafter]
    rfl
  | @dispatched limit _ _ hrun =>
    have hafter := (tables_run outer s limit service.staleAfter).2
    rwa [hrun] at hafter

/-- A request for something else than a test leaves the events alone. -/
theorem events_handle (hother : ∀ token, r.endpoint? ≠ some (.capture token)) :
    (handle service outer token r s).1.studio.store.events = s.studio.store.events := by
  cases hroute : r.endpoint? with
  | none => rw [handle_of_no_endpoint hroute]
  | some e =>
    rcases handle_cases service outer hroute token s with
      ⟨_, -, -, hstore⟩ | ⟨_, _, hdid, -⟩ | ⟨-, -, limit, hrun⟩
    · rw [hstore]
    · exact hdid.events_eq fun token h => hother token (h ▸ hroute)
    · have hafter := (tables_run outer s limit service.staleAfter).2
      rwa [hrun] at hafter

/-- A request for a test does what a capture does. -/
theorem studio_handle_capture {test : Text} (h : r.endpoint? = some (.capture test)) :
    (handle service outer token r s).1.studio =
      (s.studio.capture test r.body r.keptHeaders (outer.now s.outside)).1 := by
  rw [handle_of_endpoint h]
  rfl

/-- A service keeps the events that were captured from its exchanges. -/
theorem Collected.keeps (hutc : outer.TellsUtc) (h : Collected service outer events s) :
    s.studio.store.Keeps events := by
  induction h with
  | start => exact ⟨rfl, fun _ h => (nomatch h)⟩
  | outside _ _ ih => exact ih
  | @exchanged events s _ token r hplain ih =>
    by_cases hcapture : ∃ test, r.endpoint? = some (.capture test)
    · obtain ⟨test, hroute⟩ := hcapture
      obtain ⟨time, htime⟩ := hutc s.outside
      rw [studio_handle_capture hroute, capturedFrom, hroute]
      dsimp only
      rcases hdone : s.studio.capture test r.body r.keptHeaders (outer.now s.outside) with
        ⟨after, fault | e⟩
      · have hfailed := (s.studio.store_capture test r.body r.keptHeaders (outer.now s.outside)).1 fault
        rw [hdone] at hfailed
        rw [hfailed rfl]
        simpa [Except.toOption] using ih
      · obtain ⟨session, -, hadd⟩ := Studio.exists_of_capture_ok hdone
        exact ih.addEvent hadd (Studio.storable_of_capture htime
          (fun header hheader => hplain header (firsts_subset r.headers hheader)) hdone)
    · have hother : ∀ test, r.endpoint? ≠ some (.capture test) := fun test h => hcapture ⟨test, h⟩
      have hnone : capturedFrom outer r s = [] := by
        unfold capturedFrom
        split
        · next test hroute => exact absurd hroute (hother test)
        · rfl
      rw [hnone, List.append_nil]
      exact ⟨(events_handle hother).trans ih.rows, ih.storable⟩

/-- A capture that succeeds is answered so. -/
theorem answer?_of_capturedFrom (he : e ∈ capturedFrom outer r s) :
    (handle service outer token r s).2.bind Response.answer? = some (captured e) := by
  unfold capturedFrom at he
  split at he
  · next test hroute =>
    refine answer?_of_value hroute ?_ (by simp [captured])
    rcases hdone : s.studio.capture test r.body r.keptHeaders (outer.now s.outside) with
      ⟨after, fault | e'⟩
    · rw [hdone] at he
      cases he
    · rw [hdone] at he
      obtain rfl := List.mem_singleton.mp he
      rw [answer, capture, hdone]
      rfl
  · cases he

/-! ## Listings -/

/-- A storable event can be sent if no half of a pair stands alone in its payload. -/
theorem isSendable_event (h : e.Storable) : isSendable e.dump = e.payload.strayHalf?.isNone := by
  have hpayload : isSendable e.payload.finiteOnly = e.payload.strayHalf?.isNone := by
    rw [isSendable, Json.isFinite_finiteOnly, Bool.true_and, Json.strayHalf?, Json.texts_finiteOnly]
    rfl
  have hheaders : (headerFields e.headers).all
      (fun field => field.1.isScalar && isSendable field.2) = true := by
    rw [headerFields, List.all_map, List.all_eq_true]
    intro header hheader
    simp [h.names header hheader]
  simp [Event.dump, h.ids, hpayload, hheaders]

/-- The events that were captured for a workflow, or for one of its nodes, are answered, the latest first,
unless half of a pair stands alone in the payload of one of them: then the request fails. -/
theorem captured_events_answered (hutc : outer.TellsUtc) (h : Collected service outer events s)
    (htarget : r.target.isScalar = true) (hroute : r.endpoint? = some (.listEvents workflowId))
    (token : Text) :
    let asked := (Target.read r.target).parameter? "node_id"
    let shown := latestFirst (events.filter (·.belongs workflowId asked))
    let (after, response) := handle service outer token r s
    after = s ∧
      if ∀ e ∈ shown, e.payload.strayHalf? = none then
        response.bind Response.answer? = some (dumpAll Event.dump shown)
      else response.map Response.status = some 500 := by
  intro asked shown
  have hstorable : ∀ e ∈ shown, e.Storable := fun e he =>
    (h.keeps hutc).storable e (List.mem_of_mem_filter (List.mem_mergeSort.mp he))
  have hids : Store.encodable (workflowId :: asked.toList) = .ok () := by
    simp only [Store.encodable_iff, Utf8.unencodable?_eq_none, List.forall_mem_cons, Option.mem_toList]
    exact ⟨isScalar_of_listEvents htarget (destination_of_endpoint hroute),
      fun nodeId hnode => isScalar_parameter? htarget hnode⟩
  have hanswer : answer service outer token r (Target.read r.target) s (.listEvents workflowId) =
      (s, .ok (dumpAll Event.dump shown)) := by
    rw [answer, (h.keeps hutc).listEvents hids]
    rfl
  have hsendable : isSendable (dumpAll Event.dump shown) = true ↔
      ∀ e ∈ shown, e.payload.strayHalf? = none := by
    rw [dumpAll, isSendable_arr, List.all_map, List.all_eq_true]
    refine forall₂_congr fun e he => ?_
    rw [Function.comp_apply, isSendable_event (hstorable e he), Option.isNone_iff_eq_none]
  split
  next after response hhandle =>
  rw [handle_of_endpoint hroute, hanswer] at hhandle
  obtain ⟨rfl, rfl⟩ := Prod.mk.inj hhandle
  refine ⟨rfl, ?_⟩
  split
  · next hplain =>
    exact answer?_eq_some.mpr (@send_of_canBeSent service r (.ofDocument 200 _ [])
      (method_of_endpoint hroute).2 (show 200 ≠ 500 by decide) (hsendable.mpr hplain))
  · next hstray =>
    exact congrArg some (send_of_unsendable
      (.inr (Bool.eq_false_iff.mpr fun hsent => hstray (hsendable.mp hsent))))

/-- A request for a test. -/
def armRequest : Request :=
  sampleRequest "POST" "/webhook-tests"
    (.obj [(text "workflow_id", .str (text "w")), (text "node_id", .str (text "n"))])

/-- A service with a test that waits for `k`. -/
def awaiting : Stage Nat :=
  (handle sampleService Dispatch.secondHour (text "k") armRequest ⟨sampleService.newStudio, 0⟩).1

/-- A request that brings a value to the test. -/
def testRequest (v : Json) : Request := sampleRequest "POST" "/t/k" v

/-- The service after this request. -/
def tested (v : Json) : Stage Nat :=
  (handle sampleService Dispatch.secondHour [] (testRequest v) awaiting).1

/-- A request for the events of the workflow of the test. -/
def eventsRequest : Request := .arriving (text "GET") (text "/workflows/w/captured-events") [] []

/-- What the test captures is all that the service has captured. -/
theorem collected_tested {v : Json} (hplain : (testRequest v).IsPlain) :
    Collected sampleService Dispatch.secondHour
      (capturedFrom Dispatch.secondHour (testRequest v) awaiting) (tested v) := by
  have harm : armRequest.IsPlain := by
    unfold Request.IsPlain
    decide +kernel
  have hroute : armRequest.endpoint? = some .arm := by decide +kernel
  have hnone : capturedFrom Dispatch.secondHour armRequest ⟨sampleService.newStudio, 0⟩ = [] := by
    rw [capturedFrom, hroute]
  have hcollected : Collected sampleService Dispatch.secondHour _ awaiting :=
    (Collected.start 0).exchanged (text "k") harm
  rw [hnone] at hcollected
  exact hcollected.exchanged [] hplain

/-- Events are answered after a test has captured a list. -/
theorem list_answered :
    ∃ e, Collected sampleService Dispatch.secondHour [e] (tested (.arr [.bool true])) ∧
      (handle sampleService Dispatch.secondHour [] eventsRequest (tested (.arr [.bool true]))).2.bind
        Response.answer? = some (dumpAll Event.dump [e]) := by
  have hplain : (testRequest (.arr [.bool true])).IsPlain := by
    unfold Request.IsPlain
    decide +kernel
  have hcaptured : (capturedFrom Dispatch.secondHour (testRequest (.arr [.bool true])) awaiting).map
      (fun e => (e.workflowId, e.payload.strayHalf?)) = [(text "w", none)] := by decide +kernel
  obtain ⟨e, hevents, he⟩ := List.map_eq_singleton_iff.mp hcaptured
  obtain ⟨hworkflow, hstray⟩ := Prod.mk.inj he
  have hcollected := collected_tested hplain
  rw [hevents] at hcollected
  refine ⟨e, hcollected, ?_⟩
  have hanswered := captured_events_answered (fun _ => ⟨_, rfl⟩) hcollected
    (show eventsRequest.target.isScalar = true by decide +kernel)
    (show eventsRequest.endpoint? = some (.listEvents (text "w")) by decide +kernel) []
  have hasked : (Target.read eventsRequest.target).parameter? "node_id" = none := by decide +kernel
  have hshown : latestFirst ([e].filter (·.belongs (text "w") none)) = [e] := by
    rw [List.filter_cons_of_pos (by simp [Event.belongs, hworkflow]), List.filter_nil, latestFirst,
      List.mergeSort_singleton]
  rw [hasked] at hanswered
  dsimp only at hanswered
  have hpaired : ∀ shown ∈ [e], shown.payload.strayHalf? = none := List.forall_mem_singleton.mpr hstray
  rw [hshown, if_pos hpaired] at hanswered
  exact hanswered.2

/-- A document that spells half of a pair is captured, and from then on the events of its workflow are not
answered. -/
theorem half_withholds_events :
    ∃ events, Collected sampleService Dispatch.secondHour events (tested (.str [.surrogate 0])) ∧
      events.map (·.workflowId) = [text "w"] ∧
      (handle sampleService Dispatch.secondHour [] (testRequest (.str [.surrogate 0])) awaiting).2.map
        Response.status = some 200 ∧
      (handle sampleService Dispatch.secondHour [] eventsRequest (tested (.str [.surrogate 0]))).2.map
        Response.status = some 500 := by
  refine ⟨_, collected_tested ?_, by decide +kernel, by decide +kernel, by decide +kernel⟩
  unfold Request.IsPlain
  decide +kernel

end Web

end Showrunner
