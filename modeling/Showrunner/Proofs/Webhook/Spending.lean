import Showrunner.Proofs.Validation.Verdicts
import Showrunner.Proofs.Webhook.Capture

/-!
# What a capture costs

A capture redeems its token before it looks at the request, and nothing puts a token back. So the token
is gone after every capture, stored or not, while the tokens of other tests are as they were. The store
either gains the row of the captured event and nothing else, or is as it was.

A capture is stored exactly if its token is live, its body is kept as something, its headers are texts and
the store takes its event. A live token of a capture for which one of the last three fails is lost: nobody
can send the request again.
-/

namespace Showrunner

namespace Webhook

/-- Named values that are read as headers are these headers. -/
theorem eq_headerFields_of_mapping {fields : Fields} {headers : List (Text × Text)}
    (h : Reader.mapping Reader.string (.obj fields) = .valid headers) : fields = headerFields headers := by
  obtain ⟨_, hsame, hentries⟩ := Reader.mapping_eq_valid.mp h
  obtain rfl := Json.obj.inj hsame
  clear h hsame
  induction fields generalizing headers with
  | nil => rw [List.map_eq_nil_iff.mp hentries.symm]; rfl
  | cons field rest ih =>
    cases headers with
    | nil => cases hentries
    | cons header more =>
      obtain ⟨hfield, hrest⟩ := List.cons.inj hentries
      obtain ⟨hname, hvalue⟩ := Prod.mk.inj hfield
      rw [ih hrest, ← Prod.eta field, hname, Reader.string_eq_valid.mp hvalue]
      rfl

/-- Taking out a token that has no test changes nothing. -/
theorem Cache.remove_of_none {c : Cache} {token : Text} (h : c.find? token = none) :
    c.remove token = c := by
  have hothers : ∀ session ∈ c.sessions, decide (session.token ≠ token) = true := by
    intro session hsession
    have hother := List.find?_eq_none.mp h session hsession
    exact decide_eq_true fun hsame => hother (decide_eq_true hsame)
  rw [Cache.remove, List.filter_eq_self.mpr hothers]

end Webhook

namespace Store

variable {s : Store} {e other : Webhook.Event}

/-- Whether an event is added does not depend on its payload and its headers. -/
theorem exists_addEvent_congr {done : Store × Webhook.Event} (h : s.addEvent e = .ok done)
    (hid : other.id = e.id) (hplace : other.workflowId = e.workflowId ∧ other.nodeId = e.nodeId)
    (htime : other.capturedAt = e.capturedAt) : ∃ done, s.addEvent other = .ok done := by
  unfold addEvent at h ⊢
  simp only [bind_eq_ok] at h
  obtain ⟨time, hinstant, rows, hrows, _, hids, h⟩ := h
  rw [htime, hid, hplace.1, hplace.2, hinstant, hrows, hids]
  split at h
  · obtain ⟨_, hfail, -⟩ := bind_eq_ok.mp h
    cases hfail
  · next hfree => exact ⟨_, if_neg hfree⟩

end Store

namespace Studio

open Webhook

/-- A store gains the event of a session: one row behind the others in the table of events. -/
def Gains (s : Studio) (session : Session) (now : Stamp) (e : Event) (after : Store) : Prop :=
  e.id = (s.draw .event).2 ∧ e.workflowId = session.workflowId ∧ e.nodeId = session.nodeId ∧
    e.capturedAt = now ∧
    ∃ rows time, s.store.events = some rows ∧ Store.instantOf now = .ok time ∧
      after = { s.store with events := some (rows ++ [.ofEvent e time]) }

/-- Named values are read as headers. -/
def AreHeaders (headers : Fields) : Prop := ∃ texts, lowerNames headers = headerFields texts

variable {s : Studio} {session : Session} {token : Text} {now : Stamp} {body : List UInt8}
  {headers : Fields}

/-- An event is made of a request whose body is kept as something and whose headers are texts, and of
no other. -/
theorem eventOf_eq_ok {id : Text} {e : Event} :
    eventOf session id body headers now = .ok e ↔ ∃ payload texts, Payload.Keeps body payload ∧
      lowerNames headers = headerFields texts ∧
      e = ⟨id, session.workflowId, session.nodeId, payload, texts, now⟩ := by
  constructor
  · intro h
    rw [eventOf, bind_eq_ok] at h
    obtain ⟨payload, hpayload, h⟩ := h
    obtain ⟨texts, htexts, h⟩ := bind_eq_ok.mp h
    cases h
    have hkept : Payload.Keeps body payload := by
      rcases Payload.keeps_or_oversized body with ⟨kept, hkept⟩ | ⟨fault, hrefused⟩
      · cases hpayload.symm.trans (Payload.read_of_keeps hkept)
        exact hkept
      · cases hpayload.symm.trans (Payload.read_of_oversized hrefused)
    refine ⟨payload, texts, hkept, ?_, rfl⟩
    cases hverdict : Reader.mapping Reader.string (.obj (lowerNames headers)) with
    | invalid issues =>
      rw [hverdict] at htexts
      cases htexts
    | valid read =>
      rw [hverdict] at htexts
      cases htexts
      exact eq_headerFields_of_mapping hverdict
  · rintro ⟨payload, texts, hkeeps, htexts, rfl⟩
    rw [eventOf, Payload.read_of_keeps hkeeps, htexts, mapping_headerFields]
    rfl

/-- A capture without a live test takes out the test that there is, and fails. -/
theorem capture_of_not_live
    (h : ∀ session, s.cache.find? token = some session → session.isLive now = false)
    (body : List UInt8) (headers : Fields) :
    ∃ fault, s.capture token body headers now =
      ({ s with cache := s.cache.remove token }, .error fault) := by
  cases hfound : s.cache.find? token with
  | none =>
    refine ⟨.tokenMissing, ?_⟩
    rw [capture, Cache.redeem_of_none hfound, Cache.remove_of_none hfound]
  | some session =>
    have hredeem := Cache.redeem_of_some hfound now
    rw [h session hfound, if_neg Bool.false_ne_true] at hredeem
    rw [capture, hredeem]
    by_cases hcomparable : session.expiresAt.comparable now = true
    · exact ⟨.tokenExpired, by rw [if_pos hcomparable]⟩
    · exact ⟨Stamp.incomparable, by rw [if_neg hcomparable]⟩

/-- A capture that fails leaves the store, and one that succeeds has stored its event. -/
theorem store_capture (s : Studio) (token : Text) (body : List UInt8) (headers : Fields) (now : Stamp) :
    (∀ fault, (s.capture token body headers now).2 = .error fault →
      (s.capture token body headers now).1.store = s.store) ∧
    ∀ e, (s.capture token body headers now).2 = .ok e →
      ∃ given, s.store.addEvent given = .ok ((s.capture token body headers now).1.store, e) := by
  by_cases hwaits : ∃ session, s.cache.find? token = some session ∧ session.isLive now = true
  · obtain ⟨session, hfound, hlive⟩ := hwaits
    rw [capture_eq hfound hlive]
    cases hdone : eventOf session (s.draw .event).2 body headers now >>= s.store.addEvent with
    | error fault => exact ⟨fun _ _ => rfl, fun _ h => (nomatch h)⟩
    | ok done =>
      obtain ⟨given, -, hadd⟩ := bind_eq_ok.mp hdone
      refine ⟨fun _ h => (nomatch h), fun e he => ⟨given, ?_⟩⟩
      cases he
      exact hadd
  · have hdead : ∀ session, s.cache.find? token = some session → session.isLive now = false :=
      fun session hfound => Bool.eq_false_iff.mpr fun hlive => hwaits ⟨session, hfound, hlive⟩
    obtain ⟨fault, hcapture⟩ := capture_of_not_live hdead body headers
    rw [hcapture]
    exact ⟨fun _ _ => rfl, fun _ h => (nomatch h)⟩

/-- A capture for a live test takes it out, and stores the event or fails with the store as it was. It is
stored exactly if there is an event that the store takes. -/
theorem capture_of_live_cases (hfound : s.cache.find? token = some session)
    (hlive : session.isLive now = true) (body : List UInt8) (headers : Fields) :
    (∃ after e, s.capture token body headers now = (after, .ok e) ∧
      after.cache = s.cache.remove token ∧ s.Gains session now e after.store ∧
      ((∃ payload, Payload.Keeps body payload) ∧ AreHeaders headers ∧ s.Takes session now)) ∨
    (∃ after fault, s.capture token body headers now = (after, .error fault) ∧
      after.cache = s.cache.remove token ∧ after.store = s.store ∧
      ¬((∃ payload, Payload.Keeps body payload) ∧ AreHeaders headers ∧ s.Takes session now)) := by
  rw [capture_eq hfound hlive]
  cases hdone : eventOf session (s.draw .event).2 body headers now >>= s.store.addEvent with
  | ok done =>
    obtain ⟨e, hevent, hadd⟩ := bind_eq_ok.mp hdone
    obtain ⟨payload, texts, hkeeps, htexts, rfl⟩ := eventOf_eq_ok.mp hevent
    obtain ⟨store, stored⟩ := done
    obtain ⟨rfl, rows, time, hrows, htime, -, rfl⟩ := Store.addEvent_ok hadd
    have htakes : s.Takes session now := fun payload' headers' =>
      Store.exists_addEvent_congr hadd rfl ⟨rfl, rfl⟩ rfl
    exact .inl ⟨_, _, rfl, rfl, ⟨rfl, rfl, rfl, rfl, rows, time, hrows, htime, rfl⟩,
      ⟨payload, hkeeps⟩, ⟨texts, htexts⟩, htakes⟩
  | error fault =>
    refine .inr ⟨_, fault, rfl, rfl, rfl, ?_⟩
    rintro ⟨⟨payload, hkeeps⟩, ⟨texts, htexts⟩, htakes⟩
    have hevent : eventOf session (s.draw .event).2 body headers now =
        .ok ⟨(s.draw .event).2, session.workflowId, session.nodeId, payload, texts, now⟩ :=
      eventOf_eq_ok.mpr ⟨payload, texts, hkeeps, htexts, rfl⟩
    obtain ⟨done, hadd⟩ := htakes payload texts
    cases hdone.symm.trans (bind_eq_ok.mpr ⟨_, hevent, hadd⟩)

/-- Each capture takes its token out of the cache and leaves the tests of the others, whatever becomes of
the request. Its event is stored exactly if the token is live, the body is kept as something, the headers
are texts and the store takes the event: the store gains the row of the event and nothing else. Otherwise
the capture fails and the store is as it was. -/
theorem capture_spends (s : Studio) (token : Text) (body : List UInt8) (headers : Fields)
    (now : Stamp) :
    let (after, result) := s.capture token body headers now
    after.cache.find? token = none ∧
      (∀ other, other ≠ token → after.cache.find? other = s.cache.find? other) ∧
      (∀ e, result = .ok e → ∃ session, s.cache.find? token = some session ∧
        session.isLive now = true ∧ s.Gains session now e after.store) ∧
      (∀ fault, result = .error fault → after.store = s.store) ∧
      ((∃ e, result = .ok e) ↔ ∃ session, s.cache.find? token = some session ∧
        session.isLive now = true ∧ (∃ payload, Payload.Keeps body payload) ∧ AreHeaders headers ∧
        s.Takes session now) := by
  by_cases hwaits : ∃ session, s.cache.find? token = some session ∧ session.isLive now = true
  · obtain ⟨session, hfound, hlive⟩ := hwaits
    rcases capture_of_live_cases hfound hlive body headers with
      ⟨after, e, hcapture, hspent, hgains, hfine⟩ | ⟨after, fault, hcapture, hspent, hkept, hunfit⟩
    · rw [hcapture]
      refine ⟨hspent ▸ Cache.find?_remove_self s.cache token,
        fun other h => hspent ▸ Cache.find?_remove_of_ne s.cache h, ?_, fun _ h => (nomatch h),
        fun _ => ⟨session, hfound, hlive, hfine⟩, fun _ => ⟨e, rfl⟩⟩
      rintro _ ⟨⟩
      exact ⟨session, hfound, hlive, hgains⟩
    · rw [hcapture]
      refine ⟨hspent ▸ Cache.find?_remove_self s.cache token,
        fun other h => hspent ▸ Cache.find?_remove_of_ne s.cache h, fun _ h => (nomatch h),
        fun _ _ => hkept, fun ⟨_, h⟩ => (nomatch h), ?_⟩
      rintro ⟨other, hother, -, hfine⟩
      cases hfound.symm.trans hother
      exact absurd hfine hunfit
  · have hdead : ∀ session, s.cache.find? token = some session → session.isLive now = false :=
      fun session hfound => Bool.eq_false_iff.mpr fun hlive => hwaits ⟨session, hfound, hlive⟩
    obtain ⟨fault, hcapture⟩ := capture_of_not_live hdead body headers
    rw [hcapture]
    exact ⟨Cache.find?_remove_self s.cache token,
      fun other h => Cache.find?_remove_of_ne s.cache h, fun _ h => (nomatch h), fun _ _ => rfl,
      fun ⟨_, h⟩ => (nomatch h), fun ⟨session, hfound, hlive, _⟩ => absurd ⟨session, hfound, hlive⟩ hwaits⟩

/-- A request for a test that was armed in a new studio is not captured if the table of events has been
dropped in between. Its token was live, and is gone. -/
theorem unstored_capture_spends :
    ∃ told store,
      (Studio.empty (Cache.empty (text "u") 7200000000)).arm (text "k") (.str (text "w"))
        (.str (text "n")) (.ofHours 0) = (armed, .ok told) ∧
      armed.store.dropTable (text "captured_events") = .ok store ∧
      let dropped := { armed with store := store }
      dropped.cache.find? (text "k") = some waiting ∧ waiting.isLive (.ofHours 1) = true ∧
      let (after, result) :=
        dropped.capture (text "k") (Payload.asciiOctets "{}".toList) [] (.ofHours 1)
      (∃ fault, result = .error fault) ∧ after.store = store ∧
        after.cache.find? (text "k") = none := by
  refine ⟨_, { armed.store with events := none }, rfl, rfl, rfl, by decide +kernel, ?_⟩
  rcases @capture_of_live_cases { armed with store := { armed.store with events := none } } waiting
      (text "k") (.ofHours 1) rfl (by decide +kernel) (Payload.asciiOctets "{}".toList) [] with
    ⟨after, e, -, -, ⟨-, -, -, -, rows, time, hrows, -⟩, -⟩ |
      ⟨after, fault, hcapture, hspent, hkept, -⟩
  · cases hrows
  · rw [hcapture]
    exact ⟨⟨fault, rfl⟩, hkept, hspent ▸ Cache.find?_remove_self armed.cache (text "k")⟩

end Studio

end Showrunner
