import Showrunner.Proofs.Json.Readings
import Showrunner.Proofs.Store.Events
import Showrunner.Proofs.Store.Rows
import Showrunner.Proofs.Webhook.History
import Showrunner.Studio

/-!
# What becomes of a captured request

A request for a live token is captured as an event with the value that its body spells, or with the
text of the body where it spells none, and the listing of the workflow gains this event. The octets of
the body may be any: those that are no text are escaped. Payload and headers are kept as documents of
their own, and whatever a body spells can be written and read back as it was. So can headers in which no
halves of a pair stand side by side; in others such halves are joined.

Two kinds of bodies are neither read nor kept as text. A body with an integer numeral of more than 4300
digits and one that opens too many containers at once, whether it spells a value or not, make the capture
fail. The token has been taken out of the cache by then, and no event is stored.
-/

namespace Showrunner

namespace Payload

/-- What a body is kept as: the value that it spells, or its text if it spells none. -/
inductive Keeps (body : List UInt8) : Json → Prop
  | value {v : Json} (h : Json.read .outside (bodyText body) = .ok v) : Keeps body v
  | text {fault : Json.Malformed} {left : Nat}
      (h : Json.read .outside (bodyText body) = .error (.malformed fault left)) :
      Keeps body (.str (bodyText body))

/-- A body that is refused for its size, with a fault. -/
inductive Oversized (body : List UInt8) : Fault → Prop
  | digits {n : Nat} (h : Json.read .outside (bodyText body) = .error (.tooManyDigits n)) :
      Oversized body (.value (Integer.limitMessage n))
  | depth {container : Json.Container}
      (h : Json.read .outside (bodyText body) = .error (.tooDeep container)) :
      Oversized body (.depth (Json.depthLimitMessage container))

/-- The text of a body has a run of digits that is longer than any integer, or opens more containers
than may nest. -/
def IsLarge (body : List UInt8) : Prop :=
  (∃ n, Integer.digitLimit < n ∧ Json.HasRun n (bodyText body)) ∨
    Json.Limits.outside.depth < (bodyText body).countP Json.isOpening

variable {body : List UInt8}

/-- Every body is kept as something or refused for its size. -/
theorem keeps_or_oversized (body : List UInt8) :
    (∃ payload, Keeps body payload) ∨ ∃ fault, Oversized body fault := by
  rcases h : Json.read .outside (bodyText body) with (⟨fault, left⟩ | n | container) | v
  · exact .inl ⟨_, .text h⟩
  · exact .inr ⟨_, .digits h⟩
  · exact .inr ⟨_, .depth h⟩
  · exact .inl ⟨_, .value h⟩

/-- A body is read as what it is kept as. -/
theorem read_of_keeps {payload : Json} (h : Keeps body payload) : read body = .ok payload := by
  cases h with
  | value h => rw [read, ofText, h]
  | text h => rw [read, ofText, h]

/-- A body that is refused for its size is not read. -/
theorem read_of_oversized {fault : Fault} (h : Oversized body fault) : read body = .error fault := by
  cases h with
  | digits h => rw [read, ofText, h]
  | depth h => rw [read, ofText, h]

/-- A body that is refused for its size is large. -/
theorem isLarge_of_oversized {fault : Fault} (h : Oversized body fault) : IsLarge body := by
  cases h with
  | digits h =>
    rcases Json.size_of_refused h with ⟨_, _, h⟩ | ⟨n, -, hlong, hrun⟩ | ⟨_, h, -⟩
    · cases h
    · exact .inl ⟨n, hlong, hrun⟩
    · cases h
  | depth h =>
    rcases Json.size_of_refused h with ⟨_, _, h⟩ | ⟨_, h, -⟩ | ⟨_, -, hdeep⟩
    · cases h
    · cases h
    · exact .inr hdeep

/-- The text of a body is a text of characters: octets of no character are escaped. -/
theorem isScalar_bodyText (body : List UInt8) : (bodyText body).isScalar = true := by
  rw [Text.isScalar, List.all_eq_true]
  intro p hp
  obtain ⟨piece, -, hpiece⟩ := List.mem_flatMap.mp hp
  cases piece with
  | char c =>
    obtain rfl := List.mem_singleton.mp hpiece
    rfl
  | broken bad reason =>
    obtain ⟨octet, -, hoctet⟩ := List.mem_flatMap.mp hpiece
    have hescape : Utf8.escapeOctet octet =
        Text.ofChars ("\\x".toList ++ Quoted.hex 2 octet.toNat) := List.map_append.symm
    rw [hescape] at hoctet
    obtain ⟨c, rfl⟩ := Text.exists_char_of_mem (Text.isScalar_ofChars _) hoctet
    rfl

/-- What a body is kept as fits a document. -/
theorem fits_of_keeps {payload : Json} (h : Keeps body payload) :
    payload.Fits Json.Limits.outside.digits Json.Limits.outside.depth := by
  cases h with
  | value h => exact Json.fits_of_read (isScalar_bodyText body) h
  | text h => exact Json.fits_str (Text.isUnpaired_of_isScalar (isScalar_bodyText body))

/-! ## Bodies in ASCII -/

/-- The octets of characters in ASCII. -/
def asciiOctets (cs : List Char) : List UInt8 := cs.map fun c => UInt8.ofNat c.toNat

/-- Octets of characters in ASCII split into these characters. -/
theorem piecesAfter_ascii {cs : List Char} (hcs : ∀ c ∈ cs, c.toNat < 0x80)
    (found : List Utf8.Piece) :
    Utf8.piecesAfter found (asciiOctets cs) = found.reverse ++ cs.map .char := by
  induction cs generalizing found with
  | nil => rw [asciiOctets, List.map_nil, Utf8.piecesAfter, List.map_nil, List.append_nil]
  | cons c rest ih =>
    obtain ⟨hc, hrest⟩ := List.forall_mem_cons.mp hcs
    have hfirst : Utf8.first (UInt8.ofNat c.toNat) (asciiOctets rest) = (.char c, 0) := by
      have hvalue : (UInt8.ofNat c.toNat).toNat = c.toNat :=
        UInt8.toNat_ofNat_of_lt' (Nat.lt_trans hc (by decide))
      have hannounced : Utf8.announced (UInt8.ofNat c.toNat) = 1 :=
        if_pos (UInt8.lt_iff_toNat_lt.mpr (by rw [hvalue]; exact hc))
      simp [Utf8.first, hannounced, hvalue]
    have hbegins : asciiOctets (c :: rest) = UInt8.ofNat c.toNat :: asciiOctets rest := rfl
    rw [hbegins, Utf8.piecesAfter, hfirst]
    simp only [List.drop_zero]
    rw [ih hrest, List.reverse_cons, List.append_assoc]
    rfl

/-- The text of a body in ASCII. -/
theorem bodyText_ascii {cs : List Char} (hcs : cs.all (fun c => c.toNat < 0x80) = true) :
    bodyText (asciiOctets cs) = Text.ofChars cs := by
  have hascii : ∀ c ∈ cs, c.toNat < 0x80 := fun c hc =>
    of_decide_eq_true (List.all_eq_true.mp hcs c hc)
  rw [bodyText, Utf8.decodeEscaping, Utf8.pieces, piecesAfter_ascii hascii, List.reverse_nil,
    List.nil_append, List.flatMap_map]
  exact List.flatMap_pure_eq_map CodePoint.scalar cs

/-- A body that is one integer of too many digits is refused for its size. -/
theorem oversized_of_ones {n : Nat} (h : Integer.digitLimit < n) :
    Oversized (asciiOctets (List.replicate n '1')) (.value (Integer.limitMessage n)) := by
  obtain ⟨more, rfl⟩ : ∃ more, n = more + 1 := ⟨n - 1, by omega⟩
  have hdigits : ∀ d ∈ List.replicate (more + 1) '1', Digits.isAscii d = true := fun d hd =>
    (List.eq_of_mem_replicate hd) ▸ by decide
  have hbody := @bodyText_ascii (List.replicate (more + 1) '1') (by simp [List.all_replicate])
  rw [List.replicate_succ] at hdigits hbody
  have hlength : ('1' :: List.replicate more '1').length = more + 1 := by
    rw [List.length_cons, List.length_replicate]
  have hread := Json.read_of_long (by decide) hdigits (hlength ▸ h)
  rw [hlength, ← hbody] at hread
  exact .digits hread

/-- A body that opens too many arrays is refused for its size, though it spells no value. -/
theorem oversized_of_openings {n : Nat} (h : Json.Limits.outside.depth < n) :
    Oversized (asciiOctets (List.replicate n '[')) (.depth (Json.depthLimitMessage .array)) := by
  have hbody : bodyText (asciiOctets (List.replicate n '[')) = List.replicate n (.scalar '[') := by
    rw [bodyText_ascii (by simp [List.all_replicate]), Text.ofChars, List.map_replicate]
  exact .depth (hbody ▸ Json.read_of_openings h)

end Payload

namespace Studio

open Webhook

/-- No header has two halves of a pair side by side, in its name or in its value. -/
def AreUnpaired (headers : List (Text × Text)) : Prop :=
  ∀ header ∈ headers, header.1.IsUnpaired ∧ header.2.IsUnpaired

/-- An event is captured from a request for a session: it has the ids of the session, the payload, the
headers under their lowered names and the time. The listings that it belongs to gain it and nothing else,
its headers as documents spell them, which is as they are unless halves of a pair stand side by side in
the headers. They are answered where each row of the store can be read, and each row can be read
afterwards. -/
structure Captures (s : Studio) (session : Session) (payload : Json) (headers : List (Text × Text))
    (now : Stamp) (s' : Studio) (e : Event) : Prop where
  id : e.id = (s.draw .event).2
  place : e.workflowId = session.workflowId ∧ e.nodeId = session.nodeId
  payload : e.payload = payload
  lowered : headerFields e.headers = lowerNames (headerFields headers)
  capturedAt : e.capturedAt = now
  spent : s'.cache = s.cache.remove session.token
  listed : ∃ spelled, SpelledAs e.headers spelled ∧ (AreUnpaired headers → spelled = e.headers) ∧
    ∀ nodeId : Option Text, nodeId.all (session.nodeId = ·) = true →
      ∃ time, Store.instantOf now = .ok time ∧
        ∀ events, s.store.listEvents session.workflowId nodeId = .ok events → ∃ first last,
          events = first ++ last ∧ s'.store.listEvents session.workflowId nodeId =
            .ok (first ++ { e with headers := spelled, capturedAt := .utc time } :: last)
  answered : s.store.IsReadable → ∀ nodeId : Option Text, nodeId.all (session.nodeId = ·) = true →
    ∃ events, s.store.listEvents session.workflowId nodeId = .ok events
  readable : s.store.IsReadable → s'.store.IsReadable
  others : ∀ workflowId nodeId,
    ¬(session.workflowId = workflowId ∧ nodeId.all (session.nodeId = ·) = true) →
    s'.store.listEvents workflowId nodeId = s.store.listEvents workflowId nodeId

/-- The store takes an event of a session, whatever its payload and headers. -/
def Takes (s : Studio) (session : Session) (now : Stamp) : Prop :=
  ∀ payload headers, ∃ done, s.store.addEvent
    ⟨(s.draw .event).2, session.workflowId, session.nodeId, payload, headers, now⟩ = .ok done

variable {s : Studio} {session : Session} {token : Text} {now : Stamp}

/-- Lowering the names of headers whose values are texts gives such headers. -/
theorem exists_lowerNames (headers : List (Text × Text)) :
    ∃ lowered, lowerNames (headerFields headers) = headerFields lowered := by
  refine List.foldlRecOn (motive := fun fields => ∃ lowered, fields = headerFields lowered)
    (headerFields headers) _ ⟨[], rfl⟩ fun fields hfields header hheader => ?_
  obtain ⟨lowered, rfl⟩ := hfields
  obtain ⟨sent, -, rfl⟩ := List.mem_map.mp hheader
  exact exists_put sent.1.lower sent.2 lowered

/-- Lowered headers fit a document if no halves of a pair stand side by side in the headers. -/
theorem fieldsFit_lowerNames {headers : List (Text × Text)} (h : AreUnpaired headers)
    (limit : Option Nat) (depth : Nat) :
    Json.FieldsFit limit depth (lowerNames (headerFields headers)) := by
  refine List.foldlRecOn (motive := Json.FieldsFit limit depth) (headerFields headers) _
    (.nil limit depth) fun fields hfields header hheader => ?_
  obtain ⟨sent, hsent, rfl⟩ := List.mem_map.mp hheader
  exact hfields.put (Text.isUnpaired_lower (h sent hsent).1) (Json.fits_str (h sent hsent).2)

/-- The event of a request whose body is kept as something. -/
theorem eventOf_of_keeps {body : List UInt8} {payload : Json} (h : Payload.Keeps body payload)
    (session : Session) (id : Text) (headers : List (Text × Text)) (now : Stamp) :
    ∃ lowered, headerFields lowered = lowerNames (headerFields headers) ∧
      eventOf session id body (headerFields headers) now =
        .ok ⟨id, session.workflowId, session.nodeId, payload, lowered, now⟩ := by
  obtain ⟨lowered, hlowered⟩ := exists_lowerNames headers
  refine ⟨lowered, hlowered.symm, ?_⟩
  rw [eventOf, Payload.read_of_keeps h, hlowered, mapping_headerFields]
  rfl

/-- A body that is refused for its size makes no event. -/
theorem eventOf_of_oversized {body : List UInt8} {fault : Fault} (h : Payload.Oversized body fault)
    (session : Session) (id : Text) (headers : Fields) (now : Stamp) :
    eventOf session id body headers now = .error fault := by
  rw [eventOf, Payload.read_of_oversized h]
  rfl

/-- A request for a live token takes the token out and draws an id, and then stores its event. -/
theorem capture_eq (hfound : s.cache.find? token = some session) (hlive : session.isLive now = true)
    (body : List UInt8) (headers : Fields) :
    s.capture token body headers now =
      ({ (s.draw .event).1 with cache := s.cache.remove token } : Studio).keep
        (eventOf session (s.draw .event).2 body headers now >>= s.store.addEvent) := by
  have hredeem := Cache.redeem_of_some hfound now
  rw [if_pos hlive] at hredeem
  rw [capture, hredeem]
  rfl

/-- A request for a live token is captured where the store takes its event, unless its body is refused
for its size: then the capture fails, with the token gone and no event stored. Only large bodies are
refused for their size. -/
theorem capture_of_live (hfound : s.cache.find? token = some session)
    (hlive : session.isLive now = true) (htakes : s.Takes session now) (body : List UInt8)
    (headers : List (Text × Text)) :
    (∀ payload, Payload.Keeps body payload →
      ∃ s' e, s.capture token body (headerFields headers) now = (s', .ok e) ∧
        s.Captures session payload headers now s' e) ∧
    (∀ fault, Payload.Oversized body fault →
      ∃ s', s.capture token body (headerFields headers) now = (s', .error fault) ∧
        s'.cache.find? token = none ∧ s'.store = s.store) ∧
    (¬Payload.IsLarge body → ∃ payload, Payload.Keeps body payload) := by
  refine ⟨fun payload hkeeps => ?_, fun fault hoversized => ?_, fun hsmall => ?_⟩
  · obtain ⟨lowered, hlowered, hevent⟩ :=
      eventOf_of_keeps hkeeps session (s.draw .event).2 headers now
    obtain ⟨⟨store, e⟩, hadd⟩ := htakes payload lowered
    obtain ⟨rfl, -⟩ := Store.addEvent_ok hadd
    refine ⟨{ (s.draw .event).1 with cache := s.cache.remove token, store := store },
      ⟨(s.draw .event).2, session.workflowId, session.nodeId, payload, lowered, now⟩, ?_, ?_⟩
    · rw [capture_eq hfound hlive, hevent]
      change Studio.keep _ (s.store.addEvent _) = _
      rw [hadd]
      rfl
    · have hfits := Payload.fits_of_keeps hkeeps
      obtain ⟨spelled, hspelled⟩ := exists_spelledAs lowered
      have htoken : session.token = token := of_decide_eq_true
        (List.find?_some (p := fun other : Session => decide (other.token = token)) hfound)
      exact
        { id := rfl
          place := ⟨rfl, rfl⟩
          payload := rfl
          lowered := hlowered
          capturedAt := rfl
          spent := by rw [htoken]
          listed := by
            refine ⟨spelled, hspelled, fun hunpaired => ?_, fun nodeId hnode => ?_⟩
            · exact hspelled.eq (hlowered ▸ fieldsFit_lowerNames hunpaired none 0)
            · have hlisted := Store.listEvents_addEvent hadd hfits.sized hspelled hnode
              rwa [hfits.respelled] at hlisted
          answered := fun hreadable nodeId hnode => hreadable.exists_listEvents hadd hnode
          readable := fun hreadable => hreadable.addEvent hadd hfits.sized
          others := fun workflowId nodeId hother =>
            Store.listEvents_addEvent_of_other hadd hother }
  · refine ⟨{ (s.draw .event).1 with cache := s.cache.remove token }, ?_, ?_, rfl⟩
    · rw [capture_eq hfound hlive, eventOf_of_oversized hoversized]
      rfl
    · exact Cache.find?_remove_self s.cache token
  · rcases Payload.keeps_or_oversized body with hkeeps | ⟨fault, hoversized⟩
    · exact hkeeps
    · exact absurd (Payload.isLarge_of_oversized hoversized) hsmall

/-- A session of two hours that waits for `k`. -/
def waiting : Session := ⟨text "k", text "w", text "n", .ofHours 2⟩

/-- A new studio in which this session waits. -/
def armed : Studio := Studio.empty ⟨text "u", 7200000000, [waiting]⟩

/-- A new store takes any event of the session. -/
theorem takes_armed : armed.Takes waiting (.ofHours 1) := by
  intro payload headers
  have hids : Store.encodable [(armed.draw .event).2, waiting.workflowId, waiting.nodeId] = .ok () :=
    Store.encodable_iff.mpr (by decide +kernel)
  obtain ⟨store, hadd⟩ := @Store.exists_addEvent armed.store
    ⟨(armed.draw .event).2, waiting.workflowId, waiting.nodeId, payload, headers, .ofHours 1⟩ []
    (Stamp.ofHours 1).wall rfl (Store.instantOf_utc _) hids rfl
  exact ⟨_, hadd⟩

/-- A new store lists no events. -/
theorem listEvents_armed : armed.store.listEvents (text "w") none = .ok [] := by
  have hid : Store.encodable [text "w"] = .ok () := Store.encodable_iff.mpr (by decide +kernel)
  have hnone : Store.empty.events = some [] := rfl
  rw [armed, Studio.empty, Store.listEvents_eq hnone, Option.toList_none, hid, List.filter_nil,
    List.mergeSort_nil]
  rfl

/-- A request with a list as its body is captured with the list, and one whose list is not closed with
the text. -/
theorem armed_captures :
    let headers := headerFields [(text "X-Kind", text "one")]
    ∀ sent ∈ [("[true]", Json.arr [.bool true]), ("[true", .str (text "[true"))],
      ∃ s' e, armed.capture (text "k") (Payload.asciiOctets sent.1.toList) headers (.ofHours 1) =
          (s', .ok e) ∧
        e.payload = sent.2 ∧ s'.store.listEvents (text "w") none = .ok [e] ∧ s'.store.IsReadable ∧
        s'.cache.find? (text "k") = none := by
  intro headers sent hsent
  obtain ⟨hkept, -, -⟩ := @capture_of_live armed waiting (text "k") (.ofHours 1) rfl
    (by decide +kernel) takes_armed (Payload.asciiOctets sent.1.toList) [(text "X-Kind", text "one")]
  have hkeeps : Payload.Keeps (Payload.asciiOctets sent.1.toList) sent.2 := by
    simp only [List.mem_cons, List.not_mem_nil, or_false] at hsent
    rcases hsent with rfl | rfl
    · have hbody := @Payload.bodyText_ascii "[true]".toList rfl
      exact .value (hbody ▸ rfl)
    · have hbody := @Payload.bodyText_ascii "[true".toList rfl
      have htext : text "[true" = Payload.bodyText (Payload.asciiOctets "[true".toList) := hbody.symm
      have hread : Json.read .outside (Payload.bodyText (Payload.asciiOctets "[true".toList)) =
          .error (.malformed .comma 0) := by
        rw [hbody]
        rfl
      rw [htext]
      exact .text hread
  obtain ⟨s', e, hcapture, hcaptures⟩ := hkept sent.2 hkeeps
  have hunpaired : AreUnpaired [(text "X-Kind", text "one")] := fun header hheader => by
    obtain rfl := List.mem_singleton.mp hheader
    exact ⟨Text.isUnpaired_of_isScalar rfl, Text.isUnpaired_of_isScalar rfl⟩
  refine ⟨s', e, hcapture, hcaptures.payload, ?_, ?_, ?_⟩
  · obtain ⟨spelled, -, hspelled, hlistings⟩ := hcaptures.listed
    obtain rfl := hspelled hunpaired
    obtain ⟨time, htime, hlisted⟩ := hlistings none rfl
    obtain ⟨first, last, hnone, hafter⟩ := hlisted [] listEvents_armed
    obtain ⟨rfl, rfl⟩ := List.append_eq_nil_iff.mp hnone.symm
    have hutc : Stamp.utc time = e.capturedAt := by
      rw [hcaptures.capturedAt, ← Except.ok.inj ((Store.instantOf_utc _).symm.trans htime)]
      rfl
    rw [hutc] at hafter
    exact hafter
  · exact hcaptures.readable Store.isReadable_empty
  · rw [Cache.find?, hcaptures.spent]
    exact Cache.find?_remove_self armed.cache (text "k")

/-- A request for a live token is not captured, though the store takes its event, if its body is an
integer of 4301 digits or opens 20000 arrays: the token is gone, and no event has been stored. -/
theorem oversized_not_captured :
    armed.cache.find? (text "k") = some waiting ∧ waiting.isLive (.ofHours 1) = true ∧
    armed.Takes waiting (.ofHours 1) ∧
    ∀ body ∈ [Payload.asciiOctets (List.replicate 4301 '1'),
        Payload.asciiOctets (List.replicate 20000 '[')],
      let (s', result) := armed.capture (text "k") body [] (.ofHours 1)
      (∀ e, result ≠ .ok e) ∧ s'.cache.find? (text "k") = none ∧
        s'.store.listEvents (text "w") none = .ok [] := by
  have hlost : ∀ {body fault}, Payload.Oversized body fault →
      let (s', result) := armed.capture (text "k") body [] (.ofHours 1)
      (∀ e, result ≠ .ok e) ∧ s'.cache.find? (text "k") = none ∧
        s'.store.listEvents (text "w") none = .ok [] := by
    intro body fault hoversized
    rw [@capture_eq armed waiting (text "k") (.ofHours 1) rfl (by decide +kernel),
      eventOf_of_oversized hoversized]
    exact ⟨fun e h => (nomatch h), Cache.find?_remove_self armed.cache (text "k"), listEvents_armed⟩
  refine ⟨rfl, by decide +kernel, takes_armed, fun body hbody => ?_⟩
  simp only [List.mem_cons, List.not_mem_nil, or_false] at hbody
  rcases hbody with rfl | rfl
  · exact hlost (Payload.oversized_of_ones (by decide))
  · exact hlost (Payload.oversized_of_openings (by decide))

end Studio

end Showrunner
