import Mathlib.Data.List.Induction
import Showrunner.Proofs.Outcome
import Showrunner.Proofs.Time.Instant
import Showrunner.Webhook.Cache

/-!
# The history of a token

What a token is good for is written in the history of the cache. A session waits from the moment in
which it is armed until its token is armed again, asked for, or swept after the session has expired,
and whoever asks for a token gets the session that waits for it, unless it has expired. So a session
is given out at most once, and what is done with other tokens makes no difference.

Each call does to the session of a token what its entry in the history says, whatever else the cache
holds; the history decides by a fold over its entries. A call that ends with a fault changes nothing,
or only takes out the session that was asked for: arming fails where the expiry would leave the
calendar, and a sweep fails where its time does not compare with the expiry of some session.
-/

namespace Showrunner

namespace Webhook

/-- A call of a cache, with the time at which it is made. -/
inductive Call
  | arm (token workflowId nodeId : Text) (now : Stamp)
  | redeem (token : Text) (now : Stamp)
  | consume (token : Text) (now : Stamp)
  | sweep (cutoff : Stamp)

/-- What a call did: it armed a session, took out the session of a token, swept, or had no effect. -/
inductive Entry
  | armed (session : Session)
  | asked (token : Text)
  | swept (cutoff : Stamp)
  | refused

namespace Call

/-- The time at which a call is made. -/
def time : Call → Stamp
  | .arm _ _ _ now => now
  | .redeem _ now => now
  | .consume _ now => now
  | .sweep cutoff => cutoff

/-- The token that a call asks for, and when. -/
def asks? : Call → Option (Text × Stamp)
  | .redeem token now => some (token, now)
  | .consume token now => some (token, now)
  | _ => none

/-- Recognise a call that has to do with a token; a sweep has to do with every token. -/
def concerns (x : Text) : Call → Bool
  | .arm token _ _ _ => token = x
  | .redeem token _ => token = x
  | .consume token _ => token = x
  | .sweep _ => true

/-- The cache that a call leaves, and the session that it returns. -/
def perform : Call → Cache → Cache × Option Session
  | .arm token workflowId nodeId now, c =>
      match c.armGiven token (.str workflowId) (.str nodeId) now with
      | .ok (left, _) => (left, none)
      | .error _ => (c, none)
  | .redeem token now, c => ((c.redeem token now).1, (c.redeem token now).2.toOption)
  | .consume token now, c => ((c.consume token now).1, (c.consume token now).2.toOption.join)
  | .sweep cutoff, c =>
      match c.sweep cutoff with
      | .ok (left, _) => (left, none)
      | .error _ => (c, none)

/-- What a call did, by how it ended. -/
def entry (c : Cache) : Call → Entry
  | .arm token workflowId nodeId now =>
      match c.armGiven token (.str workflowId) (.str nodeId) now with
      | .ok (_, armed) => .armed ⟨token, workflowId, nodeId, armed.expiresAt⟩
      | .error _ => .refused
  | .redeem token _ => .asked token
  | .consume token _ => .asked token
  | .sweep cutoff =>
      match c.sweep cutoff with
      | .ok _ => .swept cutoff
      | .error _ => .refused

end Call

namespace Cache

/-- The cache that calls leave. -/
def after (c : Cache) (calls : List Call) : Cache :=
  calls.foldl (fun c call => (call.perform c).1) c

/-- What calls did, in order. -/
def history (c : Cache) : List Call → List Entry
  | [] => []
  | call :: rest => call.entry c :: (call.perform c).1.history rest

/-- At most one session waits for each token. -/
def Keyed (c : Cache) : Prop := (c.sessions.map Session.token).Nodup

end Cache

/-- A session is live at a time that compares with its expiry and does not come after it. -/
def Session.isLive (s : Session) (now : Stamp) : Bool :=
  s.expiresAt.comparable now && !s.expiresAt.before now

/-- What an entry makes of the session that waits for a token. -/
def Entry.effect (x : Text) (waiting : Option Session) : Entry → Option Session
  | .armed s => if s.token = x then some s else waiting
  | .asked token => if token = x then none else waiting
  | .swept cutoff => waiting.filter fun s => !s.expiresAt.before cutoff
  | .refused => waiting

/-- Recognise an entry that has to do with a token; a sweep has to do with every token. -/
def Entry.concerns (x : Text) : Entry → Bool
  | .armed s => s.token = x
  | .asked token => token = x
  | .swept _ => true
  | .refused => false

/-- An entry ends the wait of a session: its token is armed again or asked for, or there is a sweep
after its expiry. -/
def Entry.Ends (s : Session) : Entry → Prop
  | .armed later => later.token = s.token
  | .asked token => token = s.token
  | .swept cutoff => s.expiresAt.before cutoff = true
  | .refused => False

/-- A session waits: it was armed, and nothing since has ended its wait. -/
def Waits (entries : List Entry) (s : Session) : Prop :=
  ∃ before since, entries = before ++ .armed s :: since ∧ ∀ e ∈ since, ¬e.Ends s

variable {c c' : Cache} {x : Text} {now cutoff : Stamp} {s : Session}

/-! ## Sessions of a cache -/

namespace Cache

/-- A token that was taken out has no session. -/
@[simp] theorem find?_remove_self (c : Cache) (x : Text) : (c.remove x).find? x = none := by
  simp [find?, remove]

/-- Taking out one token leaves the session of another. -/
theorem find?_remove_of_ne (c : Cache) {y : Text} (h : y ≠ x) :
    (c.remove x).find? y = c.find? y := by
  have hsame : (fun s : Session => decide (decide (s.token ≠ x) = true ∧ decide (s.token = y) = true)) =
      fun s => decide (s.token = y) := by
    funext s
    by_cases hs : s.token = y
    · simp [hs, h]
    · simp [hs]
  rw [find?, remove, List.find?_filter, hsame, find?]

/-- A session that is put in waits for its token. -/
theorem find?_put (c : Cache) (s : Session) (x : Text) :
    (c.put s).find? x = if s.token = x then some s else c.find? x := by
  have hsplit : (c.put s).find? x = ((c.remove s.token).find? x).or ([s].find? (·.token = x)) :=
    List.find?_append
  rw [hsplit]
  split
  · next htoken =>
    rw [htoken, find?_remove_self]
    simp [htoken]
  · next hne =>
    rw [find?_remove_of_ne c (Ne.symm hne)]
    simp [hne]

/-- Taking out a token leaves at most one session for each. -/
theorem Keyed.remove (hc : c.Keyed) (x : Text) : (c.remove x).Keyed :=
  List.Nodup.sublist (List.Sublist.map _ List.filter_sublist) hc

/-- Putting a session in leaves at most one session for each token. -/
theorem Keyed.put (hc : c.Keyed) (s : Session) : (c.put s).Keyed := by
  have hnew : s.token ∉ (c.remove s.token).sessions.map Session.token := by
    simp [Cache.remove]
  simp only [Keyed, Cache.put, List.map_append, List.map_cons, List.map_nil]
  refine List.nodup_append.mpr ⟨hc.remove s.token, by simp, fun t ht u hu heq => hnew ?_⟩
  rwa [heq, List.mem_singleton.mp hu] at ht

/-! ## What each call does -/

/-- Arming with ids that are texts puts in a session, unless its expiry would leave the calendar. -/
theorem armGiven_str (c : Cache) (token workflowId nodeId : Text) (now : Stamp) :
    c.armGiven token (.str workflowId) (.str nodeId) now =
      (now.add c.lifetime).map fun expiresAt =>
        let s : Session := ⟨token, workflowId, nodeId, expiresAt⟩
        (c.put s, c.announce s) := by
  unfold armGiven arm
  cases now.add c.lifetime with
  | error fault => rfl
  | ok expiresAt => rfl

/-- Marking the sessions that have expired fails where one of them does not compare. -/
theorem mapM_expiredBefore (sessions : List Session) (cutoff : Stamp) :
    (sessions.mapM fun s => do pure (s, ← expiredBefore s cutoff) :
        Except Fault (List (Session × Bool))) =
      if sessions.all (·.expiresAt.comparable cutoff) then
        .ok (sessions.map fun s => (s, s.expiresAt.before cutoff))
      else .error Stamp.incomparable := by
  induction sessions with
  | nil => rfl
  | cons s rest ih =>
    rw [List.mapM_cons, ih, expiredBefore]
    by_cases hs : s.expiresAt.comparable cutoff = true
    · by_cases hrest : rest.all (·.expiresAt.comparable cutoff) = true
      · simp [hs, hrest, bind, Except.bind, pure, Except.pure]
      · simp [hs, hrest, bind, Except.bind, pure, Except.pure]
    · simp [hs, bind, Except.bind]

/-- A sweep keeps the sessions that have not expired, unless one of them does not compare. -/
theorem sweep_eq (c : Cache) (cutoff : Stamp) :
    c.sweep cutoff =
      if c.sessions.all (·.expiresAt.comparable cutoff) then
        .ok ({ c with sessions := c.sessions.filter fun s => !s.expiresAt.before cutoff },
          c.sessions.countP (·.expiresAt.before cutoff))
      else .error Stamp.incomparable := by
  rw [sweep, mapM_expiredBefore]
  split
  · simp [bind, Except.bind, pure, Except.pure, List.filter_map, List.countP_map, Function.comp_def]
  · rfl

/-- A sweep keeps the session of a token unless it has expired. -/
theorem find?_sweep (hc : c.Keyed) (cutoff : Stamp) (x : Text) :
    Cache.find? { c with sessions := c.sessions.filter fun s => !s.expiresAt.before cutoff } x =
      (c.find? x).filter fun s => !s.expiresAt.before cutoff := by
  obtain ⟨baseUrl, lifetime, sessions⟩ := c
  simp only [find?, Keyed] at hc ⊢
  induction sessions with
  | nil => rfl
  | cons s rest ih =>
    obtain ⟨hnew, hrest⟩ := List.nodup_cons.mp hc
    by_cases htoken : s.token = x
    · -- no other session has this token
      have hnone : rest.find? (·.token = x) = none := by
        rw [List.find?_eq_none]
        intro other hother hsame
        exact hnew (List.mem_map.mpr ⟨other, hother, by simpa [htoken] using hsame⟩)
      by_cases hexpired : s.expiresAt.before cutoff = true
      · simp [htoken, hexpired, ih hrest, hnone, Option.filter]
      · simp [htoken, hexpired, Option.filter]
    · by_cases hexpired : s.expiresAt.before cutoff = true
      · simp [htoken, hexpired, ih hrest]
      · simp [htoken, hexpired, ih hrest]

/-- Redeeming a token without a session changes nothing. -/
theorem redeem_of_none (h : c.find? x = none) (now : Stamp) :
    c.redeem x now = (c, .error .tokenMissing) := by
  rw [redeem, h]

/-- Redeeming a token takes out its session, and returns it if it is live. -/
theorem redeem_of_some (h : c.find? x = some s) (now : Stamp) :
    c.redeem x now = (c.remove x,
      if s.isLive now then .ok s
      else if s.expiresAt.comparable now then .error .tokenExpired
      else .error Stamp.incomparable) := by
  rw [redeem, h]
  refine congrArg (Prod.mk _) ?_
  unfold expiredBefore Session.isLive
  split
  · next hcomparable =>
    rw [hcomparable]
    cases s.expiresAt.before now with
    | false => rfl
    | true => rfl
  · next hincomparable =>
    rw [Bool.eq_false_iff.mpr hincomparable]
    rfl

/-- Redeeming a token leaves the lifetime of sessions alone. -/
theorem lifetime_redeem (c : Cache) (x : Text) (now : Stamp) :
    (c.redeem x now).1.lifetime = c.lifetime := by
  cases hfound : c.find? x with
  | none => rw [redeem_of_none hfound]
  | some s =>
    rw [redeem_of_some hfound]
    rfl

/-- Redeeming a token leaves at most one session for each. -/
theorem Keyed.redeem (hc : c.Keyed) (x : Text) (now : Stamp) : (c.redeem x now).1.Keyed := by
  cases hfound : c.find? x with
  | none => rwa [redeem_of_none hfound]
  | some s =>
    rw [redeem_of_some hfound]
    exact hc.remove x

/-- Redeeming a token leaves no session for it, and the sessions of the others. -/
theorem find?_redeem (c : Cache) (x : Text) (now : Stamp) (y : Text) :
    (c.redeem x now).1.find? y = if x = y then none else c.find? y := by
  cases hfound : c.find? x with
  | none =>
    rw [redeem_of_none hfound]
    split
    · next hxy => exact hxy ▸ hfound
    · rfl
  | some s =>
    rw [redeem_of_some hfound]
    by_cases hxy : x = y
    · rw [if_pos hxy, ← hxy, find?_remove_self]
    · rw [if_neg hxy, find?_remove_of_ne c (Ne.symm hxy)]

/-- Redeeming a token returns its session if it is live. -/
theorem redeem_toOption (c : Cache) (x : Text) (now : Stamp) :
    (c.redeem x now).2.toOption = (c.find? x).filter (·.isLive now) := by
  cases hfound : c.find? x with
  | none =>
    rw [redeem_of_none hfound]
    rfl
  | some s =>
    rw [redeem_of_some hfound]
    cases hlive : s.isLive now with
    | true => simp [Option.filter, hlive, Except.toOption]
    | false =>
      simp only [Option.filter, hlive, Bool.false_eq_true, if_false]
      split
      · rfl
      · rfl

/-- Consuming a token returns the session that redeeming it returns. -/
theorem consume_toOption (c : Cache) (x : Text) (now : Stamp) :
    (c.consume x now).2.toOption.join = (c.redeem x now).2.toOption := by
  simp only [consume]
  generalize (c.redeem x now).2 = found
  split
  · rfl
  · rfl
  · rfl
  · rfl

end Cache

namespace Call

/-- A call that asks for a token returns its session if it is live. -/
theorem perform_asking {call : Call} (h : call.asks? = some (x, now)) (c : Cache) :
    (call.perform c).2 = (c.find? x).filter (·.isLive now) := by
  cases call with
  | redeem token time =>
    cases h
    exact c.redeem_toOption x now
  | consume token time =>
    cases h
    exact (c.consume_toOption x now).trans (c.redeem_toOption x now)
  | arm token workflowId nodeId time => cases h
  | sweep cutoff => cases h

/-- Arming puts in a session that expires within the calendar. -/
theorem perform_arm_of_ok {token workflowId nodeId : Text} {expiresAt : Stamp}
    (h : now.add c.lifetime = .ok expiresAt) :
    (arm token workflowId nodeId now).perform c =
        (c.put ⟨token, workflowId, nodeId, expiresAt⟩, none) ∧
      (arm token workflowId nodeId now).entry c =
        .armed ⟨token, workflowId, nodeId, expiresAt⟩ := by
  simp only [perform, entry, Cache.armGiven_str, h, Except.map]
  trivial

/-- Arming has no effect if the session would expire outside of the calendar. -/
theorem perform_arm_of_error {token workflowId nodeId : Text} {fault : Fault}
    (h : now.add c.lifetime = .error fault) :
    (arm token workflowId nodeId now).perform c = (c, none) ∧
      (arm token workflowId nodeId now).entry c = .refused := by
  simp only [perform, entry, Cache.armGiven_str, h, Except.map]
  trivial

/-- A sweep keeps what has not expired if its time compares with every expiry. -/
theorem perform_sweep_of_comparable
    (h : c.sessions.all (·.expiresAt.comparable cutoff) = true) :
    (sweep cutoff).perform c =
        ({ c with sessions := c.sessions.filter fun s => !s.expiresAt.before cutoff }, none) ∧
      (sweep cutoff).entry c = .swept cutoff := by
  simp only [perform, entry, Cache.sweep_eq, if_pos h]
  trivial

/-- A sweep has no effect if its time does not compare with some expiry. -/
theorem perform_sweep_of_incomparable
    (h : ¬c.sessions.all (·.expiresAt.comparable cutoff) = true) :
    (sweep cutoff).perform c = (c, none) ∧ (sweep cutoff).entry c = .refused := by
  simp only [perform, entry, Cache.sweep_eq, if_neg h]
  trivial

/-- What a call may leave: a session more, a token less, what a sweep keeps, or what there was. -/
theorem perform_cases (call : Call) (c : Cache) :
    (∃ s, (call.perform c).1 = c.put s ∧ call.entry c = .armed s) ∨
    (∃ token now, (call.perform c).1 = (c.redeem token now).1 ∧ call.entry c = .asked token) ∨
    (∃ cutoff, c.sessions.all (·.expiresAt.comparable cutoff) = true ∧
      (call.perform c).1 =
        { c with sessions := c.sessions.filter fun s => !s.expiresAt.before cutoff } ∧
      call.entry c = .swept cutoff) ∨
    ((call.perform c).1 = c ∧ call.entry c = .refused) := by
  cases call with
  | arm token workflowId nodeId now =>
    cases hexpiry : now.add c.lifetime with
    | ok expiresAt =>
      obtain ⟨hleft, hentry⟩ := perform_arm_of_ok hexpiry
      exact .inl ⟨_, by rw [hleft], hentry⟩
    | error fault =>
      obtain ⟨hleft, hentry⟩ := perform_arm_of_error hexpiry
      exact .inr (.inr (.inr ⟨by rw [hleft], hentry⟩))
  | redeem token now => exact .inr (.inl ⟨token, now, rfl, rfl⟩)
  | consume token now => exact .inr (.inl ⟨token, now, rfl, rfl⟩)
  | sweep cutoff =>
    by_cases hcomparable : c.sessions.all (·.expiresAt.comparable cutoff) = true
    · obtain ⟨hleft, hentry⟩ := perform_sweep_of_comparable hcomparable
      exact .inr (.inr (.inl ⟨cutoff, hcomparable, by rw [hleft], hentry⟩))
    · obtain ⟨hleft, hentry⟩ := perform_sweep_of_incomparable hcomparable
      exact .inr (.inr (.inr ⟨by rw [hleft], hentry⟩))

/-- A call leaves the lifetime of sessions alone. -/
@[simp] theorem lifetime_perform (call : Call) (c : Cache) :
    (call.perform c).1.lifetime = c.lifetime := by
  obtain ⟨s, hleft, -⟩ | ⟨token, now, hleft, -⟩ | ⟨cutoff, -, hleft, -⟩ | ⟨hleft, -⟩ :=
    call.perform_cases c
  · rw [hleft]
    rfl
  · rw [hleft]
    exact c.lifetime_redeem token now
  · rw [hleft]
  · rw [hleft]

/-- A call leaves at most one session for each token. -/
theorem keyed_perform (hc : c.Keyed) (call : Call) : (call.perform c).1.Keyed := by
  obtain ⟨s, hleft, -⟩ | ⟨token, now, hleft, -⟩ | ⟨cutoff, -, hleft, -⟩ | ⟨hleft, -⟩ :=
    call.perform_cases c
  · rw [hleft]
    exact hc.put s
  · rw [hleft]
    exact hc.redeem token now
  · rw [hleft]
    exact List.Nodup.sublist (List.Sublist.map _ List.filter_sublist) hc
  · rwa [hleft]

/-- A call does to the session of a token what its entry says. -/
theorem find?_perform (hc : c.Keyed) (call : Call) (x : Text) :
    (call.perform c).1.find? x = (call.entry c).effect x (c.find? x) := by
  obtain ⟨s, hleft, hentry⟩ | ⟨token, now, hleft, hentry⟩ | ⟨cutoff, -, hleft, hentry⟩ |
    ⟨hleft, hentry⟩ := call.perform_cases c
  · rw [hleft, hentry]
    exact c.find?_put s x
  · rw [hleft, hentry]
    exact c.find?_redeem token now x
  · rw [hleft, hentry]
    exact Cache.find?_sweep hc cutoff x
  · rw [hleft, hentry]
    rfl

end Call

/-! ## What the history says -/

namespace Cache

/-- A new cache has no sessions. -/
theorem keyed_empty (baseUrl : Text) (lifetime : Int) : (empty baseUrl lifetime).Keyed :=
  List.nodup_nil

/-- The session of a token is what the history makes of it. -/
theorem find?_after (hc : c.Keyed) (calls : List Call) (x : Text) :
    (c.after calls).find? x =
      (c.history calls).foldl (fun waiting e => e.effect x waiting) (c.find? x) := by
  induction calls generalizing c with
  | nil => rfl
  | cons call rest ih =>
    change ((call.perform c).1.after rest).find? x = _
    rw [ih (Call.keyed_perform hc call), Call.find?_perform hc call x]
    rfl

/-- The calls before others come first in the history. -/
theorem history_append (c : Cache) (first rest : List Call) :
    c.history (first ++ rest) = c.history first ++ (c.after first).history rest := by
  induction first generalizing c with
  | nil => rfl
  | cons call others ih => rw [List.cons_append, history, ih, history, List.cons_append]; rfl

end Cache

/-- An entry about other tokens leaves the session of a token alone. -/
theorem effect_of_not_concerns {e : Entry} (h : ¬e.concerns x = true) (waiting : Option Session) :
    e.effect x waiting = waiting := by
  cases e with
  | armed later => exact if_neg (by simpa [Entry.concerns] using h)
  | asked token => exact if_neg (by simpa [Entry.concerns] using h)
  | swept cutoff => exact absurd rfl h
  | refused => rfl

/-- What the history makes of the session of a token depends on the entries about this token alone. -/
theorem foldl_effect_filter (entries : List Entry) (waiting : Option Session) :
    (entries.filter (·.concerns x)).foldl (fun waiting e => e.effect x waiting) waiting =
      entries.foldl (fun waiting e => e.effect x waiting) waiting := by
  induction entries generalizing waiting with
  | nil => rfl
  | cons e rest ih =>
    by_cases hconcerns : e.concerns x = true
    · rw [List.filter_cons_of_pos hconcerns, List.foldl_cons, List.foldl_cons, ih]
    · rw [List.filter_cons_of_neg hconcerns, List.foldl_cons, effect_of_not_concerns hconcerns, ih]

/-- One more entry arms a session that waits from then on, or leaves one waiting. -/
theorem waits_concat {entries : List Entry} {e : Entry} :
    Waits (entries ++ [e]) s ↔ e = .armed s ∨ Waits entries s ∧ ¬e.Ends s := by
  constructor
  · rintro ⟨before, since, hsplit, hsince⟩
    rcases List.eq_nil_or_concat since with rfl | ⟨since, last, rfl⟩
    · obtain ⟨-, hlast⟩ := List.append_inj' hsplit rfl
      exact .inl (List.cons.inj hlast).1
    · rw [List.concat_eq_append, ← List.cons_append, ← List.append_assoc] at hsplit
      obtain ⟨hentries, hlast⟩ := List.append_inj' hsplit rfl
      obtain rfl := (List.cons.inj hlast).1
      rw [List.concat_eq_append] at hsince
      exact .inr ⟨⟨before, since, hentries, fun e he => hsince e (List.mem_append_left _ he)⟩,
        hsince e (List.mem_append_right _ (List.mem_singleton_self e))⟩
  · rintro (rfl | ⟨⟨before, since, rfl, hsince⟩, hends⟩)
    · exact ⟨entries, [], rfl, fun e he => nomatch he⟩
    · refine ⟨before, since ++ [e], by simp, fun other hother => ?_⟩
      rcases List.mem_append.mp hother with hold | hnew
      · exact hsince other hold
      · exact List.mem_singleton.mp hnew ▸ hends

/-- What an entry makes of the session of a token: the one that it arms, or the one that was there and
whose wait it does not end. -/
theorem effect_eq_some {e : Entry} {waiting : Option Session} (hwaiting : ∀ s ∈ waiting, s.token = x) :
    e.effect x waiting = some s ↔
      (e = .armed s ∧ s.token = x) ∨ (waiting = some s ∧ ¬e.Ends s) := by
  cases e with
  | armed later =>
    by_cases htoken : later.token = x
    · simp only [Entry.effect, if_pos htoken, Option.some.injEq, Entry.armed.injEq, Entry.Ends]
      constructor
      · rintro rfl
        exact .inl ⟨rfl, htoken⟩
      · rintro (⟨rfl, -⟩ | ⟨rfl, hends⟩)
        · rfl
        · exact absurd (htoken.trans (hwaiting s rfl).symm) hends
    · simp only [Entry.effect, if_neg htoken, Entry.armed.injEq, Entry.Ends]
      constructor
      · intro h
        exact .inr ⟨h, fun hsame => htoken (hsame.trans (hwaiting s h))⟩
      · rintro (⟨rfl, hsame⟩ | ⟨h, -⟩)
        · exact absurd hsame htoken
        · exact h
  | asked token =>
    by_cases htoken : token = x
    · simp only [Entry.effect, if_pos htoken, Entry.Ends]
      constructor
      · exact fun h => nomatch h
      · rintro (⟨h, -⟩ | ⟨h, hends⟩)
        · cases h
        · exact absurd (htoken.trans (hwaiting s h).symm) hends
    · simp only [Entry.effect, if_neg htoken, Entry.Ends]
      constructor
      · exact fun h => .inr ⟨h, fun hsame => htoken (hsame.trans (hwaiting s h))⟩
      · rintro (⟨h, -⟩ | ⟨h, -⟩)
        · cases h
        · exact h
  | swept cutoff => simp [Entry.effect, Entry.Ends, Option.filter_eq_some_iff]
  | refused => simp [Entry.effect, Entry.Ends]

/-- The history gives a token the session that waits for it. -/
theorem foldl_effect_eq_some {entries : List Entry} :
    entries.foldl (fun waiting e => e.effect x waiting) none = some s ↔
      Waits entries s ∧ s.token = x := by
  induction entries using List.reverseRecOn generalizing s with
  | nil =>
    constructor
    · exact fun h => nomatch h
    · rintro ⟨⟨before, since, hsplit, -⟩, -⟩
      simp at hsplit
  | append_singleton entries e ih =>
    rw [List.foldl_append, List.foldl_cons, List.foldl_nil, waits_concat,
      effect_eq_some fun s hs => (ih.mp hs).2, ih]
    constructor
    · rintro (⟨he, htoken⟩ | ⟨⟨hwaits, htoken⟩, hends⟩)
      · exact ⟨.inl he, htoken⟩
      · exact ⟨.inr ⟨hwaits, hends⟩, htoken⟩
    · rintro ⟨he | ⟨hwaits, hends⟩, htoken⟩
      · exact .inl ⟨he, htoken⟩
      · exact .inr ⟨⟨hwaits, htoken⟩, hends⟩

/-- A session that waits although an entry would have ended its wait was armed after that entry. -/
theorem Waits.armed_since {before since : List Entry} {e : Entry}
    (h : Waits (before ++ e :: since) s) (he : e ≠ .armed s) (hends : e.Ends s) :
    .armed s ∈ since := by
  induction since using List.reverseRecOn with
  | nil =>
    rcases waits_concat.mp h with harmed | ⟨-, hkept⟩
    · exact absurd harmed he
    · exact absurd hends hkept
  | append_singleton since last ih =>
    rw [← List.cons_append, ← List.append_assoc] at h
    rcases waits_concat.mp h with rfl | ⟨hwaits, -⟩
    · exact List.mem_append_right _ (List.mem_singleton_self _)
    · exact List.mem_append_left _ (ih hwaits)

/-! ## Times that compare -/

/-- All sessions of a cache know the offset of their expiry, or none does. -/
def Cache.Uniform (aware : Bool) (c : Cache) : Prop :=
  ∀ s ∈ c.sessions, s.expiresAt.isAware = aware

variable {aware : Bool}

/-- A new cache has no sessions, which compare. -/
theorem Cache.uniform_empty (baseUrl : Text) (lifetime : Int) :
    (Cache.empty baseUrl lifetime).Uniform aware := fun _ h => nomatch h

/-- A stamp that is moved knows its offset as before. -/
theorem isAware_add {t u : Stamp} {micros : Int} (h : t.add micros = .ok u) :
    u.isAware = t.isAware := by
  unfold Stamp.add at h
  split at h
  · next moved hmoved =>
    cases h
    obtain ⟨w, -, rfl⟩ := Option.map_eq_some_iff.mp hmoved
    rfl
  · cases h

/-- A time compares with every expiry of a cache whose sessions know their offsets as it does. -/
theorem Cache.Uniform.comparable (hc : c.Uniform aware) (ht : cutoff.isAware = aware) :
    c.sessions.all (·.expiresAt.comparable cutoff) = true := by
  rw [List.all_eq_true]
  intro s hs
  rw [Stamp.comparable, hc s hs, ht, beq_self_eq_true]

/-- Calls whose times compare leave sessions that compare. -/
theorem Cache.Uniform.perform (hc : c.Uniform aware) {call : Call}
    (ht : call.time.isAware = aware) : (call.perform c).1.Uniform aware := by
  have hredeem : ∀ token now, (c.redeem token now).1.Uniform aware := by
    intro token now
    cases hfound : c.find? token with
    | none => rwa [Cache.redeem_of_none hfound]
    | some s =>
      rw [Cache.redeem_of_some hfound]
      exact fun s hs => hc s (List.mem_filter.mp hs).1
  cases call with
  | arm token workflowId nodeId now =>
    cases hexpiry : now.add c.lifetime with
    | ok expiresAt =>
      rw [(Call.perform_arm_of_ok hexpiry).1]
      intro s hs
      rcases List.mem_append.mp hs with hold | hnew
      · exact hc s (List.mem_filter.mp hold).1
      · rw [List.mem_singleton.mp hnew]
        exact (isAware_add hexpiry).trans ht
    | error fault => rwa [(Call.perform_arm_of_error hexpiry).1]
  | redeem token now => exact hredeem token now
  | consume token now => exact hredeem token now
  | sweep cutoff =>
    have hcutoff : cutoff.isAware = aware := ht
    rw [(Call.perform_sweep_of_comparable (hc.comparable hcutoff)).1]
    exact fun s hs => hc s (List.mem_filter.mp hs).1

/-- What a call does whose time compares depends on the lifetime of sessions alone. -/
theorem Call.entry_congr (hc : c.Uniform aware) (hc' : c'.Uniform aware)
    (hlifetime : c.lifetime = c'.lifetime) {call : Call} (ht : call.time.isAware = aware) :
    call.entry c = call.entry c' := by
  cases call with
  | arm token workflowId nodeId now =>
    cases hexpiry : now.add c.lifetime with
    | ok expiresAt =>
      rw [(perform_arm_of_ok hexpiry).2, (perform_arm_of_ok (hlifetime ▸ hexpiry)).2]
    | error fault =>
      rw [(perform_arm_of_error hexpiry).2, (perform_arm_of_error (hlifetime ▸ hexpiry)).2]
  | redeem token now => rfl
  | consume token now => rfl
  | sweep cutoff =>
    have hcutoff : cutoff.isAware = aware := ht
    rw [(perform_sweep_of_comparable (hc.comparable hcutoff)).2,
      (perform_sweep_of_comparable (hc'.comparable hcutoff)).2]

/-- A call that has nothing to do with a token leaves no entry about it. -/
theorem Call.concerns_entry {call : Call} (h : ¬call.concerns x = true) (c : Cache) :
    ¬(call.entry c).concerns x = true := by
  cases call with
  | arm token workflowId nodeId now =>
    cases hexpiry : now.add c.lifetime with
    | ok expiresAt =>
      rw [(perform_arm_of_ok hexpiry).2]
      exact h
    | error fault =>
      rw [(perform_arm_of_error hexpiry).2]
      exact Bool.false_ne_true
  | redeem token now => exact h
  | consume token now => exact h
  | sweep cutoff => exact absurd rfl h

/-- Among calls whose times compare, those on other tokens make no difference to what happens to a
token. -/
theorem Cache.history_filter (hc : c.Uniform aware) (hc' : c'.Uniform aware)
    (hlifetime : c.lifetime = c'.lifetime) {calls : List Call}
    (ht : ∀ call ∈ calls, call.time.isAware = aware) (x : Text) :
    (c'.history (calls.filter (·.concerns x))).filter (·.concerns x) =
      (c.history calls).filter (·.concerns x) := by
  induction calls generalizing c c' with
  | nil => rfl
  | cons call rest ih =>
    have hcall := ht call List.mem_cons_self
    have hrest := fun other hother => ht other (List.mem_cons_of_mem call hother)
    by_cases hconcerns : call.concerns x = true
    · have hsame := ih (hc.perform hcall) (hc'.perform hcall)
        (by rw [Call.lifetime_perform, Call.lifetime_perform, hlifetime]) hrest
      rw [List.filter_cons_of_pos hconcerns, history, history,
        Call.entry_congr hc hc' hlifetime hcall, List.filter_cons, List.filter_cons, hsame]
    · have hsame := ih (hc.perform hcall) hc'
        (by rw [Call.lifetime_perform, hlifetime]) hrest
      rw [List.filter_cons_of_neg hconcerns, history,
        List.filter_cons_of_neg (Call.concerns_entry hconcerns c), hsame]

/-! ## What whoever asks gets -/

/-- A call that asks for a token returns the session that waits for it and is live. -/
theorem perform_asking_eq_some (baseUrl : Text) (lifetime : Int) (calls : List Call) {call : Call}
    (h : call.asks? = some (x, now)) :
    (call.perform ((Cache.empty baseUrl lifetime).after calls)).2 = some s ↔
      Waits ((Cache.empty baseUrl lifetime).history calls) s ∧ s.token = x ∧ s.isLive now = true := by
  rw [Call.perform_asking h, Option.filter_eq_some_iff,
    Cache.find?_after (Cache.keyed_empty baseUrl lifetime), ← and_assoc]
  exact and_congr_left' foldl_effect_eq_some

/-- Calls after which the history says the same about a token are given the same when they ask for it. -/
theorem perform_asking_congr {baseUrl : Text} {lifetime : Int} {calls calls' : List Call} {call : Call}
    (h : call.asks? = some (x, now))
    (hsame : ((Cache.empty baseUrl lifetime).history calls').filter (·.concerns x) =
      ((Cache.empty baseUrl lifetime).history calls).filter (·.concerns x)) :
    (call.perform ((Cache.empty baseUrl lifetime).after calls)).2 =
      (call.perform ((Cache.empty baseUrl lifetime).after calls')).2 := by
  have hkeyed := Cache.keyed_empty baseUrl lifetime
  rw [Call.perform_asking h, Call.perform_asking h, Cache.find?_after hkeyed,
    Cache.find?_after hkeyed, ← foldl_effect_filter, ← hsame, foldl_effect_filter]

/-- After any calls of a new cache, at whatever times, a call that asks for a token returns a session
exactly if the session was armed for this token, nothing has ended its wait since, and its expiry is not
before the time of the call. Where two calls are given a session for one token, the session of the later
one was armed between them. What was done with other tokens makes no difference: what is returned is the
same after all calls of which the history says the same about the token, and where the times of the
calls compare, so that no sweep fails, those on other tokens may be left out. -/
theorem returned_iff_waiting (baseUrl : Text) (lifetime : Int) (calls : List Call) :
    (∀ (call : Call) (x : Text) (now : Stamp) (s : Session), call.asks? = some (x, now) →
      ((call.perform ((Cache.empty baseUrl lifetime).after calls)).2 = some s ↔
        Waits ((Cache.empty baseUrl lifetime).history calls) s ∧ s.token = x ∧
          s.isLive now = true)) ∧
    (∀ (between : List Call) (first second : Call) (x : Text) (earlier later : Stamp)
      (s₁ s₂ : Session), first.asks? = some (x, earlier) → second.asks? = some (x, later) →
      (first.perform ((Cache.empty baseUrl lifetime).after calls)).2 = some s₁ →
      (second.perform ((Cache.empty baseUrl lifetime).after (calls ++ first :: between))).2 =
        some s₂ →
      .armed s₂ ∈ ((Cache.empty baseUrl lifetime).after (calls ++ [first])).history between) ∧
    (∀ (calls' : List Call) (call : Call) (x : Text) (now : Stamp), call.asks? = some (x, now) →
      ((Cache.empty baseUrl lifetime).history calls').filter (·.concerns x) =
        ((Cache.empty baseUrl lifetime).history calls).filter (·.concerns x) →
      (call.perform ((Cache.empty baseUrl lifetime).after calls)).2 =
        (call.perform ((Cache.empty baseUrl lifetime).after calls')).2) ∧
    (∀ aware : Bool, (∀ call ∈ calls, call.time.isAware = aware) →
      ∀ (call : Call) (x : Text) (now : Stamp), call.asks? = some (x, now) →
        (call.perform ((Cache.empty baseUrl lifetime).after calls)).2 =
          (call.perform
            ((Cache.empty baseUrl lifetime).after (calls.filter (·.concerns x)))).2) := by
  refine ⟨fun call x now s h => perform_asking_eq_some baseUrl lifetime calls h, ?_,
    fun calls' call x now h hsame => perform_asking_congr h hsame,
    fun aware htimes call x now h => perform_asking_congr h
      (Cache.history_filter (Cache.uniform_empty _ _) (Cache.uniform_empty _ _) rfl htimes x)⟩
  intro between first second x earlier later s₁ s₂ hfirst hsecond _ hreturned
  obtain ⟨hwaits, htoken, -⟩ := (perform_asking_eq_some baseUrl lifetime _ hsecond).mp hreturned
  have hasked : first.entry ((Cache.empty baseUrl lifetime).after calls) = .asked x := by
    cases first with
    | redeem token now => cases hfirst; rfl
    | consume token now => cases hfirst; rfl
    | arm token workflowId nodeId now => cases hfirst
    | sweep cutoff => cases hfirst
  have hafter : (Cache.empty baseUrl lifetime).after (calls ++ [first]) =
      (first.perform ((Cache.empty baseUrl lifetime).after calls)).1 := by
    rw [Cache.after, List.foldl_append]
    rfl
  rw [Cache.history_append, Cache.history, hasked] at hwaits
  rw [hafter]
  -- the call that asked first ended the wait of every session of the token
  exact hwaits.armed_since (fun h => nomatch h) htoken.symm

/-- Sessions of two hours: `a` is armed at the start, asked for an hour later and armed again then; `b`
is armed at the start as well; a sweep follows after the third hour. -/
def armedTwice : List Call :=
  [.arm (text "a") (text "w") (text "first") (.ofHours 0),
    .arm (text "b") (text "w") (text "other") (.ofHours 0), .consume (text "a") (.ofHours 1),
    .arm (text "a") (text "w") (text "second") (.ofHours 1), .sweep (.ofHours 3)]

/-- At the last moment of its two hours whoever asks for `a` gets the session that was armed later; a
moment after that, or for `b`, there is none. -/
theorem armedTwice_returned :
    let c := (Cache.empty (text "u") 7200000000).after armedTwice
    let second : Session := ⟨text "a", text "w", text "second", .ofHours 3⟩
    ((Call.redeem (text "a") (.ofHours 3)).perform c).2 = some second ∧
      ((Call.consume (text "a") (.ofHours 4)).perform c).2 ≠ some second ∧
      .armed second ∈ ((Cache.empty (text "u") 7200000000).after (armedTwice.take 3)).history
        (armedTwice.drop 3) ∧
      ((Call.redeem (text "a") (.ofHours 3)).perform c).2 =
        ((Call.redeem (text "a") (.ofHours 3)).perform ((Cache.empty (text "u") 7200000000).after
          (armedTwice.filter (·.concerns (text "a"))))).2 := by
  intro c second
  obtain ⟨hreturned, -, -, hothers⟩ := returned_iff_waiting (text "u") 7200000000 armedTwice
  obtain ⟨-, honce, -, -⟩ := returned_iff_waiting (text "u") 7200000000 (armedTwice.take 2)
  have hsecond : ((Call.redeem (text "a") (.ofHours 3)).perform c).2 = some second := by
    refine (hreturned _ _ _ second rfl).mpr ⟨⟨(Cache.empty (text "u") 7200000000).history
      (armedTwice.take 3), [.swept (.ofHours 3)], rfl, ?_⟩, rfl, by decide +kernel⟩
    intro e he
    rw [List.mem_singleton.mp he]
    exact Bool.eq_false_iff.mp (by decide +kernel)
  refine ⟨hsecond, ?_, ?_, hothers true (by decide +kernel) _ _ _ rfl⟩
  · intro hlate
    exact absurd ((hreturned _ _ _ second rfl).mp hlate).2.2 (by decide +kernel)
  · exact honce (armedTwice.drop 3) (.consume (text "a") (.ofHours 1)) _ (text "a") _ _
      ⟨text "a", text "w", text "first", .ofHours 2⟩ second rfl rfl (by decide +kernel) hsecond

end Webhook

end Showrunner
