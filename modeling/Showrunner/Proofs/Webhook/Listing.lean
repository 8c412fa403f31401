import Showrunner.Proofs.Json.Ascii
import Showrunner.Proofs.Text.Characters
import Showrunner.Proofs.Webhook.Capture

/-!
# Captured values in listings

A value that is sent as a document passes three codecs before it is listed: the octets of the document are
read as a text and the text as a value, the value is written into a column of the store, and the column is
read again. A value comes out of the listing as it was sent if its containers nest no deeper than a reader
goes, its integers have no more digits than a reader takes, the names in each object are distinct, and no
halves of a pair stand side by side in its strings.

A studio collects events as long as the table of events is there: each row can be read, and the next id is
free. Every test that is armed in such a studio can be captured for as long as it is live.
-/

namespace Showrunner

namespace Payload

/-- Characters of ASCII are encoded by their own octets. -/
theorem encode_ascii {cs : List Char} (h : AreAscii cs) :
    Utf8.encode (Text.ofChars cs) = asciiOctets cs := by
  have hchar : ∀ c ∈ cs, Utf8.encodeChar c = [UInt8.ofNat c.toNat] := fun c hc =>
    if_pos (Nat.le_of_lt_succ (h c hc))
  rw [Utf8.encode, Text.ofChars, List.flatMap_map]
  change cs.flatMap Utf8.encodeChar = _
  rw [List.flatMap_congr hchar]
  exact List.flatMap_pure_eq_map _ cs

/-- The text of a written document that arrives as octets is the document. -/
theorem bodyText_encode (v : Json) : bodyText (Utf8.encode v.writeText) = v.writeText := by
  have hascii := Json.areAscii_write v
  rw [Json.writeText, encode_ascii hascii]
  exact bodyText_ascii (List.all_eq_true.mpr fun c hc => decide_eq_true (hascii c hc))

/-- What is kept of a written document is its value. -/
theorem keeps_encode {v : Json}
    (h : v.Formed Text.IsUnpaired Json.Limits.outside.digits Json.Limits.outside.depth) :
    Keeps (Utf8.encode v.writeText) v := by
  refine .value ?_
  rw [bodyText_encode, Json.read_write h.fits.sized, h.fits.respelled]

end Payload

/-- The id of an event by its number. -/
def Webhook.Event.idOf (n : Nat) : Text := text Made.event.name ++ text "-" ++ Text.ofNat n

namespace Studio

open Webhook

/-- A studio collects events: the table of events is there, its rows can be read, and their ids have been
drawn. -/
structure Collects (s : Studio) : Prop where
  drawn : ∃ rows, s.store.events = some rows ∧ ∀ r ∈ rows, ∃ n ≤ s.ids.events, r.id = Event.idOf n
  readable : s.store.IsReadable

/-- A listed event tells of a request for a session: where it was sent and with which value, its headers
under their lowered names, and when it came. A clock of universal time told the stamp itself. -/
structure Recounts (e : Event) (session : Session) (v : Json) (headers : List (Text × Text))
    (now : Stamp) : Prop where
  place : e.workflowId = session.workflowId ∧ e.nodeId = session.nodeId
  payload : e.payload = v
  lowered : headerFields e.headers = lowerNames (headerFields headers)
  instant : e.capturedAt.instant = now.instant
  capturedAt : now.offset = some 0 → e.capturedAt = now

variable {s : Studio} {session : Session} {token workflowId nodeId : Text} {now armedAt : Stamp}
  {headers : List (Text × Text)} {v : Json} {time : Wall}

/-- A new studio collects events. -/
theorem collects_empty (cache : Cache) : (Studio.empty cache).Collects where
  drawn := ⟨[], rfl, fun _ h => (nomatch h)⟩
  readable := Store.isReadable_empty

/-- A studio with the same events collects them, whatever else it draws. -/
theorem Collects.of_events (hs : s.Collects) {s' : Studio} (hevents : s'.store.events = s.store.events)
    (hdrawn : s.ids.events ≤ s'.ids.events) : s'.Collects where
  drawn := by
    obtain ⟨rows, hrows, hids⟩ := hs.drawn
    refine ⟨rows, hevents.trans hrows, fun r hr => ?_⟩
    obtain ⟨n, hn, hid⟩ := hids r hr
    exact ⟨n, hn.trans hdrawn, hid⟩
  readable := fun rows hrows => hs.readable rows (hevents ▸ hrows)

/-- Where events are collected, the next event of a test is taken if the ids of the test have encodings and
the time lies in the calendar. -/
theorem Collects.takes (hs : s.Collects) (hworkflow : session.workflowId.isScalar = true)
    (hnode : session.nodeId.isScalar = true) (hnow : Store.instantOf now = .ok time) :
    s.Takes session now := by
  obtain ⟨rows, hrows, hids⟩ := hs.drawn
  have hfree : rows.any (·.id = (s.draw .event).2) = false := by
    refine List.any_eq_false.mpr fun r hr hsame => ?_
    obtain ⟨n, hn, hid⟩ := hids r hr
    have hnumber : n = s.ids.events + 1 :=
      Text.ofNat_injective (List.append_cancel_left (hid.symm.trans (of_decide_eq_true hsame)))
    omega
  have hencodable : Store.encodable [(s.draw .event).2, session.workflowId, session.nodeId] = .ok () := by
    have hid : (Event.idOf (s.ids.events + 1)).isScalar = true := by simp [Event.idOf]
    simp only [Store.encodable_iff, Utf8.unencodable?_eq_none, List.forall_mem_cons]
    exact ⟨hid, hworkflow, hnode, fun _ h => (nomatch h)⟩
  intro payload headers
  obtain ⟨store, hadd⟩ := @Store.exists_addEvent s.store
    ⟨(s.draw .event).2, session.workflowId, session.nodeId, payload, headers, now⟩ rows time hrows hnow
    hencodable hfree
  exact ⟨_, hadd⟩

/-- Storing the event that was drawn keeps collecting. -/
theorem Collects.addEvent (hs : s.Collects) {e e' : Event} {store : Store}
    (hid : e.id = (s.draw .event).2) (hadd : s.store.addEvent e = .ok (store, e'))
    (hsized : e.payload.Sized Json.Limits.outside.digits Json.Limits.outside.depth) (cache : Cache) :
    ({ (s.draw .event).1 with cache := cache, store := store } : Studio).Collects where
  drawn := by
    obtain ⟨rows, hrows, hids⟩ := hs.drawn
    obtain ⟨-, rows', row, hrows', -, -, rfl⟩ := Store.addEvent_ok hadd
    obtain rfl := Option.some.inj (hrows.symm.trans hrows')
    refine ⟨_, rfl, fun r hr => ?_⟩
    rcases List.mem_append.mp hr with hr | hr
    · obtain ⟨n, hn, hid⟩ := hids r hr
      exact ⟨n, Nat.le_succ_of_le hn, hid⟩
    · obtain rfl := List.mem_singleton.mp hr
      exact ⟨s.ids.events + 1, Nat.le_refl _, hid⟩
  readable := hs.readable.addEvent hadd hsized

/-- Arming a test for ids that say something puts it in, if its expiry lies in the calendar. -/
theorem arm_of_filled (hworkflow : workflowId ≠ []) (hnode : nodeId ≠ []) {expiresAt : Stamp}
    (hexpiry : armedAt.add s.cache.lifetime = .ok expiresAt) (token : Text) :
    s.arm token (.str workflowId) (.str nodeId) armedAt =
      ({ s with cache := s.cache.put ⟨token, workflowId, nodeId, expiresAt⟩ },
        .ok (s.cache.announce ⟨token, workflowId, nodeId, expiresAt⟩)) := by
  have hsays : ∀ {t : Text}, t ≠ [] → saysNothing (.str t) = false := fun {t} ht => by
    cases t with
    | nil => exact absurd rfl ht
    | cons p rest => rfl
  rw [arm, hsays hworkflow, hsays hnode, Cache.armGiven_str, hexpiry]
  rfl

/-- A request for a live test is captured if the store takes the event that is made of it. -/
theorem capture_of_addEvent (hfound : s.cache.find? token = some session)
    (hlive : session.isLive now = true) {body : List UInt8} {fields : Fields} {given e : Event}
    {store : Store} (hevent : eventOf session (s.draw .event).2 body fields now = .ok given)
    (hadd : s.store.addEvent given = .ok (store, e)) :
    s.capture token body fields now =
      ({ (s.draw .event).1 with cache := s.cache.remove token, store := store }, .ok e) := by
  rw [capture_eq hfound hlive, hevent]
  change Studio.keep _ (s.store.addEvent given) = _
  rw [hadd]
  rfl

/-- A value that is sent as a document for a live test is captured where events are collected, and the
listings of the test tell of it. -/
theorem Collects.capture_encode (hs : s.Collects) (hfound : s.cache.find? token = some session)
    (hlive : session.isLive now = true) (hworkflow : session.workflowId.isScalar = true)
    (hnode : session.nodeId.isScalar = true) (hnow : Store.instantOf now = .ok time)
    (hheaders : AreUnpaired headers)
    (hv : v.Formed Text.IsUnpaired Json.Limits.outside.digits Json.Limits.outside.depth) :
    ∃ after e listed,
      s.capture token (Utf8.encode v.writeText) (headerFields headers) now = (after, .ok e) ∧
      Recounts listed session v headers now ∧
      (∀ asked : Option Text, asked.all (session.nodeId = ·) = true → ∃ first last,
        s.store.listEvents session.workflowId asked = .ok (first ++ last) ∧
        after.store.listEvents session.workflowId asked = .ok (first ++ listed :: last)) ∧
      after.Collects := by
  obtain ⟨lowered, hlowered, hevent⟩ :=
    eventOf_of_keeps (Payload.keeps_encode hv) session (s.draw .event).2 headers now
  obtain ⟨⟨store, e⟩, hadd⟩ := hs.takes hworkflow hnode hnow v lowered
  obtain ⟨rfl, -⟩ := Store.addEvent_ok hadd
  have hcapture := capture_of_addEvent hfound hlive hevent hadd
  have hspelled : SpelledAs lowered lowered := by
    obtain ⟨spelled, hspelled⟩ := exists_spelledAs lowered
    exact hspelled.eq (hlowered ▸ fieldsFit_lowerNames hheaders none 0) ▸ hspelled
  have hinstant : (Stamp.utc time).instant = now.instant :=
    (Stamp.instant_utc time).trans (Store.instantOf_ok hnow)
  refine ⟨_, _, ⟨(s.draw .event).2, session.workflowId, session.nodeId, v, lowered, .utc time⟩, hcapture,
    ⟨⟨rfl, rfl⟩, rfl, hlowered, hinstant, fun hutc => ?_⟩, fun asked hasked => ?_,
    hs.addEvent rfl hadd hv.fits.sized (s.cache.remove token)⟩
  · obtain ⟨wall, offset⟩ := now
    obtain rfl : offset = some 0 := hutc
    obtain rfl := Except.ok.inj ((Store.instantOf_utc wall).symm.trans hnow)
    rfl
  · obtain ⟨events, hevents⟩ := hs.readable.exists_listEvents hadd hasked
    obtain ⟨time', htime, hlisted⟩ := Store.listEvents_addEvent hadd hv.fits.sized hspelled hasked
    obtain rfl := Except.ok.inj (hnow.symm.trans htime)
    obtain ⟨first, last, rfl, hafter⟩ := hlisted events hevents
    rw [hv.fits.respelled] at hafter
    exact ⟨first, last, hevents, hafter⟩

/-- A value that is sent as a document to the address of a test that has just been armed is captured, and
from then on the listings of the workflow, and of its node, tell of it between the events that they told of
before. -/
theorem capture_recounted (hs : s.Collects) (hworkflow : workflowId ≠ [] ∧ workflowId.isScalar = true)
    (hnode : nodeId ≠ [] ∧ nodeId.isScalar = true) {expiresAt : Stamp}
    (hexpiry : armedAt.add s.cache.lifetime = .ok expiresAt)
    (hlive : Session.isLive ⟨token, workflowId, nodeId, expiresAt⟩ now = true)
    (hnow : Store.instantOf now = .ok time) (hheaders : AreUnpaired headers)
    (hv : v.Formed Text.IsUnpaired Json.Limits.outside.digits 150) :
    ∃ armed told after e listed,
      s.arm token (.str workflowId) (.str nodeId) armedAt = (armed, .ok told) ∧
      armed.capture told.token (Utf8.encode v.writeText) (headerFields headers) now = (after, .ok e) ∧
      Recounts listed ⟨token, workflowId, nodeId, expiresAt⟩ v headers now ∧
      (∀ asked ∈ [none, some nodeId], ∃ first last,
        s.store.listEvents workflowId asked = .ok (first ++ last) ∧
        after.store.listEvents workflowId asked = .ok (first ++ listed :: last)) ∧
      after.Collects := by
  have harm := arm_of_filled hworkflow.1 hnode.1 hexpiry token
  have harmed : ({ s with cache := s.cache.put ⟨token, workflowId, nodeId, expiresAt⟩ } : Studio).Collects :=
    hs.of_events rfl (Nat.le_refl _)
  have hfound : (s.cache.put ⟨token, workflowId, nodeId, expiresAt⟩).find? token =
      some ⟨token, workflowId, nodeId, expiresAt⟩ := (Cache.find?_put _ _ _).trans (if_pos rfl)
  obtain ⟨after, e, listed, hcapture, hrecounts, hlistings, hafter⟩ := harmed.capture_encode hfound hlive
    hworkflow.2 hnode.2 hnow hheaders (hv.mono (by decide))
  refine ⟨_, _, after, e, listed, harm, hcapture, hrecounts, fun asked hasked => ?_, hafter⟩
  refine hlistings asked ?_
  rcases List.mem_pair.mp hasked with rfl | rfl
  · rfl
  · exact decide_eq_true rfl

/-- A value whose document has an escaped name, a half of a pair that stands alone, and numbers of each
kind. -/
def assorted : Json :=
  .obj [(text "π", .arr [.int (-7), .float (.finite false (2 ^ 52) (-53)), .float (.infinity true)]),
    (text "half", .str [.surrogate (Fin.last 2047), .scalar 'x'])]

/-- Such a value nests two deep, and documents can hold it. -/
theorem formed_assorted : assorted.Formed Text.IsUnpaired Json.Limits.outside.digits 150 := by
  have hnumber : (Binary64.finite false (2 ^ 52) (-53)).IsCanonical := by
    refine ⟨?_, ?_, ?_, .inr ?_⟩ <;> decide
  refine .obj (by decide) ?_ ?_
  · simp only [List.forall_mem_cons]
    exact ⟨Text.isUnpaired_of_isScalar rfl, Text.isUnpaired_of_isScalar rfl, fun _ h => (nomatch h)⟩
  · simp only [List.forall_mem_cons]
    refine ⟨.arr ?_, .str ?_, fun _ h => (nomatch h)⟩
    · simp only [List.forall_mem_cons]
      exact ⟨.int (by decide), .float hnumber, .float trivial, fun _ h => (nomatch h)⟩
    · exact .cons_cons rfl (.singleton _)

/-- The value is listed as it was sent to a test of a new studio. -/
theorem assorted_recounted :
    ∃ armed told after e listed,
      (Studio.empty (Cache.empty (text "u") 7200000000)).arm (text "k") (.str (text "w"))
        (.str (text "n")) (.ofHours 0) = (armed, .ok told) ∧
      armed.capture told.token (Utf8.encode assorted.writeText)
        (headerFields [(text "X-Kind", text "one")]) (.ofHours 1) = (after, .ok e) ∧
      after.store.listEvents (text "w") none = .ok [listed] ∧ listed.payload = assorted ∧
      listed.headers = [(text "x-kind", text "one")] ∧ listed.capturedAt = .ofHours 1 := by
  have hheaders : AreUnpaired [(text "X-Kind", text "one")] := fun header hheader => by
    obtain rfl := List.mem_singleton.mp hheader
    exact ⟨Text.isUnpaired_of_isScalar rfl, Text.isUnpaired_of_isScalar rfl⟩
  obtain ⟨armed, told, after, e, listed, harm, hcapture, hrecounts, hlistings, -⟩ :=
    @capture_recounted _ (text "k") (text "w") (text "n") (.ofHours 1) (.ofHours 0) _ _ _
      (collects_empty (Cache.empty (text "u") 7200000000)) ⟨by decide, by decide⟩ ⟨by decide, by decide⟩
      (.ofHours 2) rfl (by decide +kernel) (Store.instantOf_utc _) hheaders formed_assorted
  obtain ⟨first, last, hbefore, hafter⟩ := hlistings none (by simp)
  obtain ⟨rfl, rfl⟩ := List.append_eq_nil_iff.mp (Except.ok.inj (listEvents_armed.symm.trans hbefore)).symm
  refine ⟨armed, told, after, e, listed, harm, hcapture, hafter, hrecounts.payload, ?_,
    hrecounts.capturedAt rfl⟩
  exact headerFields_injective hrecounts.lowered

end Studio

end Showrunner
