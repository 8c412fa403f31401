import Showrunner.Proofs.Json.Refusal
import Showrunner.Proofs.Render.Address
import Showrunner.Proofs.Time.Instant

/-!
# What comes of a plan that is sent to be rendered

A plan is rendered exactly if the render service answers with a good status and a body that can be read, and
the result is an object whatever the body is. An answer with another status is a rejection with the beginning of
its body, and a service that is out of reach is unavailable.

Three kinds of faults come out as they are instead. A connection that ends before the announced length is no
trouble of a connection as far as the service is concerned. A fault while the body of a refusal is read is not
looked at. And a body that is too large for a document, though its status is good, is neither read nor kept as
text.
-/

namespace Showrunner

namespace Render

/-- A fault of a network: an address that cannot be opened, a time that runs out, a fault of the system, a
connection that is reset or closed, or a body that ends too early. -/
inductive OfNetwork : Fault → Prop
  | link (reason : Text) : OfNetwork (.link reason)
  | timeout (message : Text) : OfNetwork (.timeout message)
  | system (code : Option Int) (message : Text) : OfNetwork (.system code message)
  | reset (message : Text) : OfNetwork (.reset message)
  | disconnected (message : Text) : OfNetwork (.disconnected message)
  | cutShort (octets : Nat) : OfNetwork (.cutShort octets)

/-- What comes of a request over a network: an answer of any kind, or a fault of the network. -/
inductive Reply.OverNetwork : Reply → Prop
  | answered (status : Int) (body : List UInt8) : OverNetwork (.answered status body)
  | cutOff (status : Int) {fault : Fault} (h : OfNetwork fault) : OverNetwork (.cutOff status fault)
  | unanswered {fault : Fault} (h : OfNetwork fault) : OverNetwork (.unanswered fault)

/-- What the text of a good answer stands for: nothing, an object, another value under a name of its own, or
the text itself where it spells no value. -/
inductive Result : Text → Json → Prop
  | empty : Result [] (.obj [])
  | object {t : Text} {fields : Fields} (h : Json.read .outside t = .ok (.obj fields)) : Result t (.obj fields)
  | other {t : Text} {v : Json} (h : Json.read .outside t = .ok v) (hv : ∀ fields, v ≠ .obj fields) :
      Result t (.obj [(text "result", v)])
  | raw {t : Text} {fault : Json.Malformed} {left : Nat} (hne : t ≠ [])
      (h : Json.read .outside t = .error (.malformed fault left)) : Result t (.obj [(text "raw", .str t)])

/-- A text that is refused for its size, with a fault. -/
inductive Oversized (t : Text) : Fault → Prop
  | digits {n : Nat} (h : Json.read .outside t = .error (.tooManyDigits n)) :
      Oversized t (.value (Integer.limitMessage n))
  | depth {container : Json.Container} (h : Json.read .outside t = .error (.tooDeep container)) :
      Oversized t (.depth (Json.depthLimitMessage container))

/-- A fault comes out of a reply as it is, though it is neither a rejection nor a service out of reach. -/
inductive Escapes : Reply → Fault → Prop
  | unanswered (octets : Nat) : Escapes (.unanswered (.cutShort octets)) (.cutShort octets)
  | cutOff {status : Int} (hgood : Reply.isGood status = true) (octets : Nat) :
      Escapes (.cutOff status (.cutShort octets)) (.cutShort octets)
  | refusal {status : Int} (hbad : Reply.isGood status = false) (fault : Fault) :
      Escapes (.cutOff status fault) fault
  | oversized {status : Int} {body : List UInt8} {fault : Fault} (hgood : Reply.isGood status = true)
      (h : Oversized (Utf8.decodeReplacing body) fault) : Escapes (.answered status body) fault

/-- A fault with which a rendering is refused, or with which the service is out of reach. -/
inductive OfService : Fault → Prop
  | rejected (status : Int) (detail : Text) : OfService (.rejected status detail)
  | unavailable (message : Text) : OfService (.unavailable message)

variable {t : Text} {v : Json} {fault : Fault} {reply : Reply}

namespace Reply

/-- The text of a good answer gives what it stands for. -/
theorem resultOf_eq_ok_iff : resultOf t = .ok v ↔ Result t v := by
  cases t with
  | nil =>
    refine ⟨fun h => Except.ok.inj h ▸ .empty, fun h => ?_⟩
    cases h with
    | empty => rfl
    | object h => cases h
    | other h => cases h
    | raw hne => exact absurd rfl hne
  | cons p rest =>
    rw [resultOf, List.isEmpty_cons, if_neg Bool.false_ne_true]
    constructor
    · intro h
      split at h
      · next fields hread => exact Except.ok.inj h ▸ .object hread
      · next w hobject hread => exact Except.ok.inj h ▸ .other hread fun fields heq => hobject fields heq
      · next hread => exact Except.ok.inj h ▸ .raw (List.cons_ne_nil p rest) hread
      · cases h
      · cases h
    · intro h
      cases h with
      | object h => rw [h]
      | other h hv =>
        rw [h]
        split
        · next fields heq => exact absurd (Except.ok.inj heq) (hv fields)
        · next w _ heq => rw [Except.ok.inj heq]
        all_goals next heq => cases heq
      | raw hne h => rw [h]

/-- The text of a good answer gives no result exactly if it is refused for its size. -/
theorem resultOf_eq_error_iff : resultOf t = .error fault ↔ Oversized t fault := by
  cases t with
  | nil =>
    refine ⟨fun h => (nomatch h), fun h => ?_⟩
    cases h with
    | digits h => cases h
    | depth h => cases h
  | cons p rest =>
    rw [resultOf, List.isEmpty_cons, if_neg Bool.false_ne_true]
    constructor
    · intro h
      split at h
      · cases h
      · cases h
      · cases h
      · next hread => exact Except.error.inj h ▸ .digits hread
      · next hread => exact Except.error.inj h ▸ .depth hread
    · intro h
      cases h with
      | digits h => rw [h]
      | depth h => rw [h]

/-- An answer with a good status comes to what its text gives. -/
theorem result_of_good {status : Int} (hgood : isGood status = true) (body : List UInt8) :
    (answered status body).result = resultOf (Utf8.decodeReplacing body) := if_pos hgood

/-- An answer with another status is a rejection. -/
theorem result_of_bad {status : Int} (hbad : isGood status = false) (body : List UInt8) :
    (answered status body).result =
      .error (.rejected status ((Utf8.decodeReplacing body).take keptLength)) := by
  rw [result, hbad]
  rfl

/-- An answer with a good status that is cut off comes to a service that is unreachable. -/
theorem result_of_cutOff {status : Int} (hgood : isGood status = true) (fault : Fault) :
    (cutOff status fault).result = .error (unreachable fault) := congrArg Except.error (if_pos hgood)

/-- A fault while the body of a refusal is read is not looked at. -/
theorem result_of_refusal {status : Int} (hbad : isGood status = false) (fault : Fault) :
    (cutOff status fault).result = .error fault := by
  rw [result, hbad]
  rfl

/-- A fault of a network makes the service unreachable, unless a body ended too early. -/
theorem unreachable_of_network (h : OfNetwork fault) :
    unreachable fault = .unavailable (text "Backend unreachable: " ++ fault.message) ∧
        (∀ octets, fault ≠ .cutShort octets) ∨
      ∃ octets, fault = .cutShort octets ∧ unreachable fault = fault := by
  cases h with
  | cutShort octets => exact .inr ⟨octets, rfl, rfl⟩
  | _ => exact .inl ⟨rfl, fun _ h => nomatch h⟩

/-- A text that is refused for its size is no fault of the service. -/
theorem not_ofService_of_oversized (h : Oversized t fault) : ¬OfService fault := by
  rintro (⟨status, detail⟩ | ⟨message⟩) <;> cases h

/-- A fault of a network is none of the service. -/
theorem not_ofService_of_network (h : OfNetwork fault) : ¬OfService fault := by
  rintro (⟨status, detail⟩ | ⟨message⟩) <;> cases h

/-- A reply gives a result exactly if it is an answer with a good status whose text stands for one. -/
theorem result_eq_ok_iff : reply.result = .ok v ↔
    ∃ status body, reply = .answered status body ∧ isGood status = true ∧
      Result (Utf8.decodeReplacing body) v := by
  constructor
  · intro h
    cases reply with
    | answered status body =>
      cases hgood : isGood status with
      | true => exact ⟨status, body, rfl, hgood, resultOf_eq_ok_iff.mp (result_of_good hgood body ▸ h)⟩
      | false =>
        rw [result_of_bad hgood] at h
        cases h
    | cutOff status fault => cases h
    | unanswered fault => cases h
  · rintro ⟨status, body, rfl, hgood, hresult⟩
    rw [result_of_good hgood]
    exact resultOf_eq_ok_iff.mpr hresult

/-- A trouble of a connection, other than a body that ends too early, strikes before there is an answer, or while
an answer with a good status is read. -/
def Strikes (trouble : Fault) (reply : Reply) : Prop :=
  OfNetwork trouble ∧ (∀ octets, trouble ≠ .cutShort octets) ∧
    (reply = .unanswered trouble ∨ ∃ status, isGood status = true ∧ reply = .cutOff status trouble)

/-- The service is unavailable where a trouble strikes. -/
theorem Strikes.result_eq {trouble : Fault} (h : Strikes trouble reply) :
    reply.result = .error (.unavailable (text "Backend unreachable: " ++ trouble.message)) := by
  obtain ⟨hnetwork, hwhole, hreply⟩ := h
  have hunreachable : unreachable trouble = .unavailable (text "Backend unreachable: " ++ trouble.message) := by
    rcases unreachable_of_network hnetwork with ⟨hunavailable, -⟩ | ⟨octets, rfl, -⟩
    · exact hunavailable
    · exact absurd rfl (hwhole octets)
  rcases hreply with rfl | ⟨status, hgood, rfl⟩
  · exact congrArg Except.error hunreachable
  · rw [result_of_cutOff hgood, hunreachable]

/-- What escapes comes out, and it is no fault of the service if it comes over a network. -/
theorem result_of_escapes (hnetwork : reply.OverNetwork) (h : Escapes reply fault) :
    reply.result = .error fault ∧ ¬OfService fault := by
  cases h with
  | unanswered octets => exact ⟨rfl, not_ofService_of_network (.cutShort octets)⟩
  | cutOff hgood octets =>
    exact ⟨result_of_cutOff hgood (.cutShort octets), not_ofService_of_network (.cutShort octets)⟩
  | refusal hbad fault =>
    cases hnetwork with
    | cutOff _ hfault => exact ⟨result_of_refusal hbad fault, not_ofService_of_network hfault⟩
  | oversized hgood hlarge =>
    exact ⟨(result_of_good hgood _).trans (resultOf_eq_error_iff.mpr hlarge), not_ofService_of_oversized hlarge⟩

/-- A reply over a network that gives no result is a readable refusal, or a trouble strikes, or a fault
escapes. -/
theorem rejected_or_strikes_or_escapes (hnetwork : reply.OverNetwork) (h : reply.result = .error fault) :
    (∃ status body, reply = .answered status body ∧ isGood status = false) ∨
      (∃ trouble, Strikes trouble reply) ∨ Escapes reply fault := by
  cases hnetwork with
  | answered status body =>
    cases hgood : isGood status with
    | true =>
      rw [result_of_good hgood] at h
      exact .inr (.inr (.oversized hgood (resultOf_eq_error_iff.mp h)))
    | false => exact .inl ⟨status, body, rfl, hgood⟩
  | @cutOff status trouble htrouble =>
    cases hgood : isGood status with
    | true =>
      rcases unreachable_of_network htrouble with ⟨-, hwhole⟩ | ⟨octets, rfl, hsame⟩
      · exact .inr (.inl ⟨trouble, htrouble, hwhole, .inr ⟨status, hgood, rfl⟩⟩)
      · rw [result_of_cutOff hgood, hsame] at h
        exact Except.error.inj h ▸ .inr (.inr (.cutOff hgood octets))
    | false =>
      rw [result_of_refusal hgood] at h
      exact Except.error.inj h ▸ .inr (.inr (.refusal hgood trouble))
  | @unanswered trouble htrouble =>
    rcases unreachable_of_network htrouble with ⟨-, hwhole⟩ | ⟨octets, rfl, hsame⟩
    · exact .inr (.inl ⟨trouble, htrouble, hwhole, .inl rfl⟩)
    · exact Except.error.inj h ▸ .inr (.inr (.unanswered octets))

/-- A reply over a network is a rejection exactly if it is a readable refusal, and its detail is the beginning of
the body. -/
theorem result_eq_rejected_iff (hnetwork : reply.OverNetwork) {status : Int} {detail : Text} :
    reply.result = .error (.rejected status detail) ↔
      ∃ body, reply = .answered status body ∧ isGood status = false ∧
        detail = (Utf8.decodeReplacing body).take keptLength := by
  constructor
  · intro h
    rcases rejected_or_strikes_or_escapes hnetwork h with
      ⟨given, body, rfl, hbad⟩ | ⟨trouble, hstrikes⟩ | hescapes
    · rw [result_of_bad hbad] at h
      cases h
      exact ⟨body, rfl, hbad, rfl⟩
    · cases h.symm.trans hstrikes.result_eq
    · exact absurd (.rejected status detail) (result_of_escapes hnetwork hescapes).2
  · rintro ⟨body, rfl, hbad, rfl⟩
    exact result_of_bad hbad body

/-- A reply over a network shows an unavailable service exactly if a trouble strikes, and the message is that of
the trouble. -/
theorem result_eq_unavailable_iff (hnetwork : reply.OverNetwork) {message : Text} :
    reply.result = .error (.unavailable message) ↔
      ∃ trouble, Strikes trouble reply ∧ message = text "Backend unreachable: " ++ trouble.message := by
  constructor
  · intro h
    rcases rejected_or_strikes_or_escapes hnetwork h with
      ⟨given, body, rfl, hbad⟩ | ⟨trouble, hstrikes⟩ | hescapes
    · rw [result_of_bad hbad] at h
      cases h
    · have hmessage := h.symm.trans hstrikes.result_eq
      cases hmessage
      exact ⟨trouble, hstrikes, rfl⟩
    · exact absurd (.unavailable message) (result_of_escapes hnetwork hescapes).2
  · rintro ⟨trouble, hstrikes, rfl⟩
    exact hstrikes.result_eq

/-- A reply over a network comes to another fault exactly if this fault escapes. -/
theorem result_eq_other_iff (hnetwork : reply.OverNetwork) :
    reply.result = .error fault ∧ ¬OfService fault ↔ Escapes reply fault := by
  refine ⟨fun ⟨h, hother⟩ => ?_, result_of_escapes hnetwork⟩
  rcases rejected_or_strikes_or_escapes hnetwork h with
    ⟨given, body, rfl, hbad⟩ | ⟨trouble, hstrikes⟩ | hescapes
  · rw [result_of_bad hbad] at h
    exact absurd (Except.error.inj h ▸ .rejected given _) hother
  · exact absurd (Except.error.inj (hstrikes.result_eq.symm.trans h) ▸ .unavailable _) hother
  · exact hescapes

end Reply

namespace Service

/-- With an address of the web, a plan comes to what its request comes to. Over a network it is rendered
exactly if there is an answer with a good status, with the result that the text of its body stands for; it is
rejected exactly if there is an answer with another status, and the service is unavailable exactly if a trouble
strikes. What comes out otherwise is what escapes. -/
theorem generate_outcomes {base : Text} (hbase : Address.IsWeb base) (key : Text) (patience : Json) (p : Plan)
    (send : Request → Reply) (hsend : ∀ request, (send request).OverNetwork) :
    ∃ request, (reachedAt base key patience).request p = .ok request ∧
      let reply := send request
      let outcome := (reachedAt base key patience).generate send p
      (∀ v, outcome = .ok v ↔ ∃ status body, reply = .answered status body ∧ Reply.isGood status = true ∧
        Result (Utf8.decodeReplacing body) v) ∧
      (∀ status detail, outcome = .error (.rejected status detail) ↔
        ∃ body, reply = .answered status body ∧ Reply.isGood status = false ∧
          detail = (Utf8.decodeReplacing body).take 2000) ∧
      (∀ message, outcome = .error (.unavailable message) ↔
        ∃ trouble, Reply.Strikes trouble reply ∧
          message = text "Backend unreachable: " ++ trouble.message) ∧
      ∀ fault, outcome = .error fault ∧ ¬OfService fault ↔ Escapes reply fault := by
  obtain ⟨request, hrequest, -⟩ := exists_request hbase key patience p
  have houtcome : (reachedAt base key patience).generate send p = (send request).result := by
    rw [generate, hrequest]
    rfl
  refine ⟨request, hrequest, ?_⟩
  rw [houtcome]
  exact ⟨fun v => Reply.result_eq_ok_iff, fun status detail => Reply.result_eq_rejected_iff (hsend request),
    fun message => Reply.result_eq_unavailable_iff (hsend request),
    fun fault => Reply.result_eq_other_iff (hsend request)⟩

/-- A plan for a video. -/
def reel : Plan where
  userId := text "u"
  influencerId := text "i"
  lookId := text "l"
  prompt := text "p"
  title := none
  startsAt := .ofHours 8
  rrule := none
  id := text "p1"
  status := .processing
  anchorAt := none
  lastRunAt := none
  lastError := none
  claimedAt := none
  createdAt := .ofHours 7

/-- An address of the web. -/
def farm : Text := text "http://render.test/"

/-- It is one. -/
theorem isWeb_farm : Address.IsWeb farm := ⟨"http".toList, text "render.test/", rfl, List.mem_cons_self⟩

/-- Where no answer comes in time, the service is unavailable. -/
theorem reel_unavailable :
    (reachedAt farm [] .null).generate (fun _ => .unanswered (.timeout (text "timed out"))) reel =
      .error (.unavailable (text "Backend unreachable: timed out")) := by
  obtain ⟨request, -, -, -, hunavailable, -⟩ := generate_outcomes isWeb_farm [] .null reel
    (fun _ => .unanswered (.timeout (text "timed out"))) fun _ => .unanswered (.timeout _)
  exact (hunavailable _).mpr
    ⟨.timeout (text "timed out"), ⟨.timeout _, fun _ h => (nomatch h), .inl rfl⟩, rfl⟩

/-- A fault that escapes from the reply comes out of the rendering of a plan. -/
theorem generate_of_escapes {base : Text} (hbase : Address.IsWeb base) (key : Text) (patience : Json) (p : Plan)
    {reply : Reply} {fault : Fault} (hnetwork : reply.OverNetwork) (h : Escapes reply fault) :
    (reachedAt base key patience).generate (fun _ => reply) p = .error fault ∧ ¬OfService fault := by
  obtain ⟨request, hrequest, -⟩ := exists_request hbase key patience p
  rw [generate, hrequest]
  exact Reply.result_of_escapes hnetwork h

/-- A body that ends too early, and a time that runs out while the body of a refusal is read, are faults of the
network, but what comes out is neither a rejection nor an unavailable service. -/
theorem reel_fault_escapes :
    (OfNetwork (.cutShort 3) ∧
      (reachedAt farm [] .null).generate (fun _ => .cutOff 200 (.cutShort 3)) reel = .error (.cutShort 3) ∧
      ¬OfService (.cutShort 3)) ∧
    OfNetwork (.timeout (text "timed out")) ∧
      (reachedAt farm [] .null).generate (fun _ => .cutOff 500 (.timeout (text "timed out"))) reel =
        .error (.timeout (text "timed out")) ∧
      ¬OfService (.timeout (text "timed out")) :=
  have hcut : OfNetwork (.cutShort 3) := .cutShort 3
  have hlate : OfNetwork (.timeout (text "timed out")) := .timeout _
  ⟨⟨hcut, generate_of_escapes isWeb_farm [] .null reel (.cutOff 200 hcut) (.cutOff (by decide) 3)⟩,
    hlate, generate_of_escapes isWeb_farm [] .null reel (.cutOff 500 hlate) (.refusal (by decide) _)⟩

end Service

end Render

end Showrunner
