import Mathlib.Data.List.Sort
import Showrunner.Proofs.Json.RoundTrip
import Showrunner.Proofs.Outcome
import Showrunner.Store.Events

/-!
# Events in listings

Events are listed the latest first, and events of one time in the order in which they were added. A
listing that an event belongs to gains this event and nothing else, behind all events that are as late;
every other listing stays as it was. Payload and headers of an event are kept as documents, so the event is
listed as documents spell it. Headers are small enough for a document, and where payloads are too each
listing is answered.
-/

namespace Showrunner

namespace Webhook

/-- Headers are listed as others: as documents spell them. -/
def SpelledAs (headers listed : List (Text × Text)) : Prop :=
  headerFields listed = Json.respelledFields [] (headerFields headers)

/-- Headers are small enough for a document. -/
theorem sized_headerFields (headers : List (Text × Text)) :
    (Json.obj (headerFields headers)).Sized Json.Limits.outside.digits Json.Limits.outside.depth := by
  refine .obj fun field hfield => ?_
  obtain ⟨header, -, rfl⟩ := List.mem_map.mp hfield
  exact .str header.2

/-- Headers with different names or values are different as named values. -/
theorem headerFields_injective : Function.Injective headerFields := by
  refine List.map_injective_iff.mpr fun first second h => ?_
  obtain ⟨hname, hvalue⟩ := Prod.mk.inj h
  exact Prod.ext hname (Json.str.inj hvalue)

/-- Giving a header a value leaves headers. -/
theorem exists_put (name v : Text) (headers : List (Text × Text)) :
    ∃ left, Fields.put name (.str v) (headerFields headers) = headerFields left := by
  induction headers with
  | nil => exact ⟨[(name, v)], rfl⟩
  | cons header rest ih =>
    obtain ⟨left, hleft⟩ := ih
    by_cases hsame : header.1 = name
    · exact ⟨(name, v) :: rest, if_pos hsame⟩
    · exact ⟨header :: left, (if_neg hsame).trans (congrArg (_ :: ·) hleft)⟩

/-- As documents spell them, headers are headers. -/
theorem exists_spelledAs (headers : List (Text × Text)) : ∃ listed, SpelledAs headers listed := by
  -- any headers may have been read before, so that each header is one step
  have hfrom : ∀ read, ∃ listed,
      headerFields listed = Json.respelledFields (headerFields read) (headerFields headers) := by
    induction headers with
    | nil => exact fun read => ⟨read, rfl⟩
    | cons header rest ih =>
      intro read
      obtain ⟨next, hnext⟩ := exists_put header.1.paired header.2.paired read
      obtain ⟨listed, hlisted⟩ := ih next
      refine ⟨listed, hlisted.trans ?_⟩
      rw [← hnext]
      rfl
  exact hfrom []

/-- Headers that fit a document are listed as they are. -/
theorem SpelledAs.eq {headers listed : List (Text × Text)} (h : SpelledAs headers listed)
    {limit : Option Nat} {depth : Nat} (hfit : Json.FieldsFit limit depth (headerFields headers)) :
    listed = headers := by
  refine headerFields_injective (h.trans ?_)
  exact Json.respelledFields_eq_append hfit.names fun field hfield =>
    ⟨hfit.unpaired field hfield, (hfit.values field hfield).respelled⟩

/-- Headers as named values are read as the headers. -/
theorem mapping_headerFields (headers : List (Text × Text)) :
    Reader.mapping Reader.string (.obj (headerFields headers)) = .valid headers := by
  rw [Reader.mapping, headerFields, List.map_map]
  induction headers with
  | nil => rfl
  | cons header rest ih =>
    rw [List.map_cons, Verdict.all, ih]
    rfl

end Webhook

namespace Store

section

variable {α : Type} {le : α → α → Bool}

/-- Put an item behind those that may come before it. -/
def insertLast (le : α → α → Bool) (a : α) : List α → List α
  | [] => [a]
  | b :: rest => if le b a then b :: insertLast le a rest else a :: b :: rest

/-- Putting an item in moves nothing else. -/
theorem insertLast_split (le : α → α → Bool) (a : α) (items : List α) :
    ∃ first last, items = first ++ last ∧ insertLast le a items = first ++ a :: last := by
  induction items with
  | nil => exact ⟨[], [], rfl, rfl⟩
  | cons b rest ih =>
    rw [insertLast]
    split
    · obtain ⟨first, last, hrest, hinsert⟩ := ih
      exact ⟨b :: first, last, congrArg (b :: ·) hrest, congrArg (b :: ·) hinsert⟩
    · exact ⟨[], b :: rest, rfl, rfl⟩

variable (htrans : ∀ a b c, le a b = true → le b c = true → le a c = true)
  (htotal : ∀ a b, (le a b || le b a) = true)

include htrans htotal

/-- Sorting a list puts its first item in front of all that may come behind it. -/
theorem mergeSort_cons_eq (a : α) (items : List α) :
    (a :: items).mergeSort le = (items.mergeSort le).orderedInsert (fun a b => le a b = true) a := by
  obtain ⟨first, last, hwhole, hrest, hfirst⟩ := List.mergeSort_cons htrans htotal a items
  have hsorted := List.pairwise_mergeSort htrans htotal (a :: items)
  rw [hwhole, List.pairwise_append] at hsorted
  have hlast : ∀ b ∈ last, le a b = true := (List.pairwise_cons.mp hsorted.2.1).1
  rw [hwhole, hrest]
  clear hwhole hrest hsorted
  induction first with
  | nil =>
    cases last with
    | nil => rfl
    | cons b last => simp [hlast b List.mem_cons_self]
  | cons b first ih =>
    obtain ⟨hb, hfirst⟩ := List.forall_mem_cons.mp hfirst
    rw [Bool.not_eq_true'] at hb
    simp [hb, ih hfirst]

/-- It makes no difference which of two items is put in first, one from the front and one from behind. -/
theorem orderedInsert_insertLast (a b : α) (items : List α) :
    (insertLast le a items).orderedInsert (fun a b => le a b = true) b =
      insertLast le a (items.orderedInsert (fun a b => le a b = true) b) := by
  induction items with
  | nil => by_cases hba : le b a = true <;> simp [insertLast, hba]
  | cons c rest ih =>
    by_cases hca : le c a = true
    · by_cases hbc : le b c = true
      · simp [insertLast, hca, hbc, htrans b c a hbc hca]
      · simp [insertLast, hca, hbc, ih]
    · by_cases hbc : le b c = true
      · by_cases hba : le b a = true <;> simp [insertLast, hca, hbc, hba]
      · -- what comes neither after `c` nor before `a` is not before `a` either
        have hcb : le c b = true := by
          have htwo := htotal b c
          rw [Bool.or_eq_true] at htwo
          exact htwo.resolve_left hbc
        have hba : ¬le b a = true := fun hba => hca (htrans c b a hcb hba)
        simp [insertLast, hca, hbc, hba]

/-- Sorting a list puts its last item behind all that may come before it. -/
theorem mergeSort_concat (a : α) (items : List α) :
    (items ++ [a]).mergeSort le = insertLast le a (items.mergeSort le) := by
  induction items with
  | nil => rw [List.nil_append, List.mergeSort_singleton, List.mergeSort_nil, insertLast]
  | cons b rest ih =>
    rw [List.cons_append, mergeSort_cons_eq htrans htotal, ih, mergeSort_cons_eq htrans htotal,
      orderedInsert_insertLast htrans htotal]

end

/-! ## Events that are added -/

/-- The row of an event that was captured at a time. -/
def EventRow.ofEvent (e : Webhook.Event) (time : Wall) : EventRow :=
  ⟨e.id, e.workflowId, e.nodeId, e.payload.writeText,
    (Json.obj (Webhook.headerFields e.headers)).writeText, time⟩

/-- The rows that a listing shows. -/
def EventRow.isListed (workflowId : Text) (nodeId : Option Text) (r : EventRow) : Bool :=
  r.workflowId = workflowId && nodeId.all (r.nodeId = ·)

/-- Of two events the later one is listed first. -/
def EventRow.comesFirst (a b : EventRow) : Bool := b.capturedAt ≤ a.capturedAt

/-- What comes first of two that come first of three comes first of all. -/
theorem comesFirst_trans (a b c : EventRow) (hab : a.comesFirst b = true)
    (hbc : b.comesFirst c = true) : a.comesFirst c = true :=
  decide_eq_true (Nat.le_trans (of_decide_eq_true hbc) (of_decide_eq_true hab))

/-- Of two events one may come first. -/
theorem comesFirst_total (a b : EventRow) : (a.comesFirst b || b.comesFirst a) = true := by
  rw [Bool.or_eq_true, EventRow.comesFirst, EventRow.comesFirst, decide_eq_true_eq,
    decide_eq_true_eq]
  exact Nat.le_total _ _

variable {s s' : Store} {e e' : Webhook.Event}

/-- A listing shows an event if it is one of the workflow and, where one is given, of the node. -/
theorem isListed_ofEvent (e : Webhook.Event) (time : Wall) (workflowId : Text)
    (nodeId : Option Text) :
    (EventRow.ofEvent e time).isListed workflowId nodeId =
      (decide (e.workflowId = workflowId) && nodeId.all (e.nodeId = ·)) := rfl

/-- What is small enough for a document is read from a column as documents spell it. -/
theorem readColumn_writeText {v : Json}
    (h : v.Sized Json.Limits.outside.digits Json.Limits.outside.depth) :
    readColumn v.writeText = .ok v.respelled := by
  rw [readColumn, Json.read_write h]

/-- The event of a row is the event that the row was made of, as documents spell it and at its time in
universal time. -/
theorem toEvent_ofEvent (h : e.payload.Sized Json.Limits.outside.digits Json.Limits.outside.depth)
    {headers : List (Text × Text)} (hheaders : Webhook.SpelledAs e.headers headers) (time : Wall) :
    (EventRow.ofEvent e time).toEvent =
      .ok { e with payload := e.payload.respelled, headers := headers, capturedAt := .utc time } := by
  have hpayload : readColumn (EventRow.ofEvent e time).payload = .ok e.payload.respelled :=
    readColumn_writeText h
  have hread : readColumn (EventRow.ofEvent e time).headers =
      .ok (.obj (Webhook.headerFields headers)) := by
    rw [hheaders]
    exact readColumn_writeText (Webhook.sized_headerFields e.headers)
  rw [EventRow.toEvent, hpayload, hread]
  change ((Reader.mapping Reader.string (.obj (Webhook.headerFields headers))).under
    (.field (text "headers"))).toExcept >>= _ = _
  rw [Webhook.mapping_headerFields]
  rfl

/-- Adding an event adds its row. -/
theorem addEvent_ok (h : s.addEvent e = .ok (s', e')) :
    e' = e ∧ ∃ rows time, s.events = some rows ∧ instantOf e.capturedAt = .ok time ∧
      encodable [e.id, e.workflowId, e.nodeId] = .ok () ∧
      s' = { s with events := some (rows ++ [.ofEvent e time]) } := by
  unfold addEvent at h
  simp only [bind_eq_ok] at h
  obtain ⟨time, htime, rows, hrows, _, hencodable, h⟩ := h
  have htable : s.events = some rows := by
    cases hevents : s.events with
    | none =>
      rw [hevents] at hrows
      cases hrows
    | some rows' =>
      rw [hevents] at hrows
      cases hrows
      rfl
  split at h
  · obtain ⟨_, hfail, -⟩ := bind_eq_ok.mp h
    cases hfail
  · cases h
    exact ⟨rfl, rows, time, htable, htime, hencodable, rfl⟩

/-- An event is added if the table is there, its time has a reading in universal time, its ids can be
written and its own id is free. -/
theorem exists_addEvent {rows : List EventRow} {time : Wall} (hrows : s.events = some rows)
    (htime : instantOf e.capturedAt = .ok time)
    (hids : encodable [e.id, e.workflowId, e.nodeId] = .ok ())
    (hfree : rows.any (·.id = e.id) = false) : ∃ s', s.addEvent e = .ok (s', e) := by
  rw [addEvent, htime, hrows]
  simp only [rowsOf, hids, hfree, bind, Except.bind, pure, Except.pure, Bool.false_eq_true, if_false]
  exact ⟨_, rfl⟩

/-- Events are listed from their rows, the latest first. -/
theorem listEvents_eq {rows : List EventRow} (h : s.events = some rows) (workflowId : Text)
    (nodeId : Option Text) :
    s.listEvents workflowId nodeId = encodable (workflowId :: nodeId.toList) >>= fun _ =>
      ((rows.filter (EventRow.isListed workflowId nodeId)).mergeSort EventRow.comesFirst).mapM
        EventRow.toEvent := by
  rw [listEvents, h]
  rfl

/-- Texts can be written if each of them can. -/
theorem encodable_iff {texts : List Text} :
    encodable texts = .ok () ↔ ∀ t ∈ texts, Utf8.unencodable? t = none := by
  induction texts with
  | nil => exact ⟨fun _ _ h => (nomatch h), fun _ => rfl⟩
  | cons t rest ih =>
    rw [encodable, List.forall_mem_cons, ← ih]
    cases Utf8.unencodable? t with
    | none => exact ⟨fun h => ⟨rfl, h⟩, fun h => h.2⟩
    | some message => exact ⟨fun h => (nomatch h), fun h => (nomatch h.1)⟩

/-- A listing that an added event belongs to can be asked for. -/
theorem encodable_listing {nodeId : Option Text}
    (h : encodable [e.id, e.workflowId, e.nodeId] = .ok ())
    (hnode : nodeId.all (e.nodeId = ·) = true) :
    encodable (e.workflowId :: nodeId.toList) = .ok () := by
  rw [encodable_iff] at h ⊢
  cases nodeId with
  | none => exact fun t ht => h t (List.mem_singleton.mp ht ▸ .tail _ (.head _))
  | some id =>
    obtain rfl : e.nodeId = id := of_decide_eq_true hnode
    exact fun t ht => h t (List.mem_cons_of_mem _ ht)

/-- A listing that an event belongs to gains the event and nothing else, and has it behind all that are
as late. -/
theorem listEvents_addEvent (h : s.addEvent e = .ok (s', e'))
    (hsized : e.payload.Sized Json.Limits.outside.digits Json.Limits.outside.depth)
    {headers : List (Text × Text)} (hheaders : Webhook.SpelledAs e.headers headers)
    {nodeId : Option Text} (hnode : nodeId.all (e.nodeId = ·) = true) :
    ∃ time, instantOf e.capturedAt = .ok time ∧
      ∀ events, s.listEvents e.workflowId nodeId = .ok events → ∃ first last,
        events = first ++ last ∧ s'.listEvents e.workflowId nodeId =
          .ok (first ++ { e with payload := e.payload.respelled, headers := headers,
                                 capturedAt := .utc time } :: last) := by
  obtain ⟨-, rows, time, hrows, htime, hencodable, rfl⟩ := addEvent_ok h
  have hlisting := encodable_listing hencodable hnode
  have hbelongs : (EventRow.ofEvent e time).isListed e.workflowId nodeId = true := by
    rw [isListed_ofEvent, Bool.and_eq_true_iff]
    exact ⟨decide_eq_true rfl, hnode⟩
  have hnew : ({ s with events := some (rows ++ [.ofEvent e time]) } : Store).events =
      some (rows ++ [.ofEvent e time]) := rfl
  obtain ⟨before, behind, hsplit, hinsert⟩ := insertLast_split EventRow.comesFirst
    (.ofEvent e time) ((rows.filter (EventRow.isListed e.workflowId nodeId)).mergeSort
      EventRow.comesFirst)
  refine ⟨time, htime, fun events hevents => ?_⟩
  rw [listEvents_eq hrows, hlisting, hsplit] at hevents
  obtain ⟨first, last, hfirst, hlast, rfl⟩ := mapM_append_eq_ok.mp hevents
  refine ⟨first, last, rfl, ?_⟩
  rw [listEvents_eq hnew, hlisting, List.filter_append, List.filter_cons_of_pos hbelongs,
    List.filter_nil, mergeSort_concat comesFirst_trans comesFirst_total, hinsert]
  refine mapM_append_eq_ok.mpr ⟨first, _, hfirst, ?_, rfl⟩
  rw [List.mapM_cons, toEvent_ofEvent hsized hheaders, hlast]
  rfl

/-- A listing that an event does not belong to stays as it was. -/
theorem listEvents_addEvent_of_other (h : s.addEvent e = .ok (s', e')) {workflowId : Text}
    {nodeId : Option Text}
    (hother : ¬(e.workflowId = workflowId ∧ nodeId.all (e.nodeId = ·) = true)) :
    s'.listEvents workflowId nodeId = s.listEvents workflowId nodeId := by
  obtain ⟨-, rows, time, hrows, -, -, rfl⟩ := addEvent_ok h
  have hmissing : ¬(EventRow.ofEvent e time).isListed workflowId nodeId = true := by
    rwa [isListed_ofEvent, Bool.and_eq_true_iff, decide_eq_true_eq]
  have hnew : ({ s with events := some (rows ++ [.ofEvent e time]) } : Store).events =
      some (rows ++ [.ofEvent e time]) := rfl
  rw [listEvents_eq hnew, listEvents_eq hrows, List.filter_append,
    List.filter_cons_of_neg hmissing, List.filter_nil, List.append_nil]

/-! ## Stores that can be listed -/

/-- Each row of the events can be read. -/
def IsReadable (s : Store) : Prop :=
  ∀ rows, s.events = some rows → ∀ r ∈ rows, ∃ e, r.toEvent = .ok e

/-- A new store has no rows. -/
theorem isReadable_empty : empty.IsReadable := by
  intro rows hrows r hr
  obtain rfl := Option.some.inj hrows
  exact absurd hr List.not_mem_nil

/-- A store that can be listed can be listed with one more event whose payload is small enough for a
document. -/
theorem IsReadable.addEvent (hs : s.IsReadable) (h : s.addEvent e = .ok (s', e'))
    (hsized : e.payload.Sized Json.Limits.outside.digits Json.Limits.outside.depth) :
    s'.IsReadable := by
  obtain ⟨-, rows, time, hrows, -, -, rfl⟩ := addEvent_ok h
  intro rows' hrows' r hr
  obtain rfl := Option.some.inj hrows'
  rcases List.mem_append.mp hr with hr | hr
  · exact hs rows hrows r hr
  · obtain rfl := List.mem_singleton.mp hr
    obtain ⟨headers, hheaders⟩ := Webhook.exists_spelledAs e.headers
    exact ⟨_, toEvent_ofEvent hsized hheaders time⟩

/-- Where an event can be added to a store that can be listed, there is a listing for it. -/
theorem IsReadable.exists_listEvents (hs : s.IsReadable) (h : s.addEvent e = .ok (s', e'))
    {nodeId : Option Text} (hnode : nodeId.all (e.nodeId = ·) = true) :
    ∃ events, s.listEvents e.workflowId nodeId = .ok events := by
  obtain ⟨-, rows, time, hrows, -, hencodable, -⟩ := addEvent_ok h
  rw [listEvents_eq hrows, encodable_listing hencodable hnode]
  refine exists_mapM_eq_ok fun r hr => ?_
  exact hs rows hrows r (List.mem_of_mem_filter (List.mem_mergeSort.mp hr))

end Store

end Showrunner
