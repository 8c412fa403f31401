import Showrunner.Proofs.Webhook.History

/-!
# Sweeps go unnoticed

A sweep takes out only sessions that have expired, and an expired session is given to nobody. So long
as the clock does not go back, whoever consumes tokens cannot tell whether the cache was swept in
between: both a sweep and a token that is asked for look at the expiry in the same way, and what has
expired once stays expired.

A cache that was swept and one that was not are compared step by step. They hold the same session for
each token, unless the first has none where the session of the second has expired.
-/

namespace Showrunner

namespace Webhook

/-- Recognise a sweep. -/
def Call.isSweep : Call → Bool
  | .sweep _ => true
  | _ => false

/-- The clock does not go back: the time of a call compares with that of every earlier one and is not
before it. -/
def InOrder (calls : List Call) : Prop :=
  calls.Pairwise fun earlier later =>
    earlier.time.comparable later.time = true ∧ ¬later.time.before earlier.time = true

instance (calls : List Call) : Decidable (InOrder calls) :=
  inferInstanceAs (Decidable (calls.Pairwise _))

/-- What the consuming ones of some calls return, in order. -/
def Cache.consumed (c : Cache) : List Call → List (Except Fault (Option Session))
  | [] => []
  | .consume token now :: rest => (c.consume token now).2 :: (c.consume token now).1.consumed rest
  | call :: rest => (call.perform c).1.consumed rest

/-- At a time, one cache holds what another holds, except for sessions that have expired. -/
structure Shadows (now : Stamp) (swept full : Cache) : Prop where
  lifetime : swept.lifetime = full.lifetime
  keyed : swept.Keyed ∧ full.Keyed
  uniform : swept.Uniform now.isAware ∧ full.Uniform now.isAware
  sessions : ∀ x, swept.find? x = full.find? x ∨
    swept.find? x = none ∧ ∀ s, full.find? x = some s → s.expiresAt.before now = true

variable {c swept full : Cache} {now : Stamp}

/-- New caches hold the same. -/
theorem Shadows.empty (baseUrl : Text) (lifetime : Int) (now : Stamp) :
    Shadows now (.empty baseUrl lifetime) (.empty baseUrl lifetime) where
  lifetime := rfl
  keyed := ⟨Cache.keyed_empty baseUrl lifetime, Cache.keyed_empty baseUrl lifetime⟩
  uniform := ⟨Cache.uniform_empty baseUrl lifetime, Cache.uniform_empty baseUrl lifetime⟩
  sessions := fun _ => .inl rfl

/-- What has expired stays expired. -/
theorem Shadows.later {time : Stamp} (h : Shadows now swept full)
    (hcomparable : now.comparable time = true) (hforward : ¬time.before now = true) :
    Shadows time swept full where
  lifetime := h.lifetime
  keyed := h.keyed
  uniform := (beq_iff_eq.mp hcomparable) ▸ h.uniform
  sessions := fun x => by
    rcases h.sessions x with hsame | ⟨hnone, hexpired⟩
    · exact .inl hsame
    · refine .inr ⟨hnone, fun s hs => ?_⟩
      have hbefore := hexpired s hs
      simp only [Stamp.before, decide_eq_true_eq] at hbefore hforward ⊢
      omega

/-- A cache that is swept still holds the same except for what has expired. -/
theorem Shadows.sweep (h : Shadows now swept full) :
    Shadows now ((Call.sweep now).perform swept).1 full := by
  have hcomparable := h.uniform.1.comparable rfl
  refine ⟨?_, ⟨Call.keyed_perform h.keyed.1 _, h.keyed.2⟩, ⟨h.uniform.1.perform rfl, h.uniform.2⟩,
    fun x => ?_⟩
  · rw [Call.lifetime_perform, h.lifetime]
  · rw [Call.find?_perform h.keyed.1, (Call.perform_sweep_of_comparable hcomparable).2, Entry.effect]
    rcases h.sessions x with hsame | ⟨hnone, hexpired⟩
    · rw [hsame]
      cases hfound : full.find? x with
      | none => exact .inl rfl
      | some s =>
        cases hbefore : s.expiresAt.before now with
        | false => exact .inl (by simp [Option.filter, hbefore])
        | true =>
          refine .inr ⟨by simp [Option.filter, hbefore], fun other hother => ?_⟩
          rw [← Option.some.inj hother, hbefore]
    · rw [hnone]
      exact .inr ⟨rfl, hexpired⟩

/-- Any other call leaves caches that hold the same except for what has expired. -/
theorem Shadows.perform (call : Call) (h : Shadows call.time swept full)
    (hcall : ¬call.isSweep = true) :
    Shadows call.time (call.perform swept).1 (call.perform full).1 := by
  have hentry : call.entry swept = call.entry full :=
    Call.entry_congr h.uniform.1 h.uniform.2 h.lifetime rfl
  refine ⟨?_, ⟨Call.keyed_perform h.keyed.1 call, Call.keyed_perform h.keyed.2 call⟩,
    ⟨h.uniform.1.perform rfl, h.uniform.2.perform rfl⟩, fun x => ?_⟩
  · rw [Call.lifetime_perform, Call.lifetime_perform, h.lifetime]
  · rw [Call.find?_perform h.keyed.1, Call.find?_perform h.keyed.2, hentry]
    cases he : call.entry full with
    | armed s =>
      simp only [Entry.effect]
      split
      · exact .inl rfl
      · exact h.sessions x
    | asked token =>
      simp only [Entry.effect]
      split
      · exact .inl rfl
      · exact h.sessions x
    | swept cutoff =>
      cases call with
      | sweep time => exact absurd rfl hcall
      | redeem token now => cases he
      | consume token now => cases he
      | arm token workflowId nodeId now =>
        cases hexpiry : now.add full.lifetime with
        | ok expiresAt => cases (Call.perform_arm_of_ok hexpiry).2.symm.trans he
        | error fault => cases (Call.perform_arm_of_error hexpiry).2.symm.trans he
    | refused => exact h.sessions x

/-- Consuming a token at a time that compares returns its session if it is live. -/
theorem Cache.consume_snd (hc : c.Uniform now.isAware) (x : Text) :
    (c.consume x now).2 = .ok ((c.find? x).filter (·.isLive now)) := by
  rw [consume]
  cases hfound : c.find? x with
  | none =>
    rw [redeem_of_none hfound]
    rfl
  | some s =>
    have hcomparable : s.expiresAt.comparable now = true := by
      rw [Stamp.comparable, hc s (List.mem_of_find?_eq_some hfound), beq_self_eq_true]
    rw [redeem_of_some hfound, hcomparable, Option.filter]
    cases s.isLive now with
    | true => rfl
    | false => rfl

/-- Whoever consumes a token gets the same from both caches. -/
theorem Shadows.consume (h : Shadows now swept full) (x : Text) :
    (swept.consume x now).2 = (full.consume x now).2 := by
  rw [Cache.consume_snd h.uniform.1, Cache.consume_snd h.uniform.2]
  rcases h.sessions x with hsame | ⟨hnone, hexpired⟩
  · rw [hsame]
  · rw [hnone]
    cases hfound : full.find? x with
    | none => rfl
    | some s => simp [Option.filter, Session.isLive, hexpired s hfound]

/-- Consuming tokens from both caches returns the same, whether the sweeps are left out of the second
or not. -/
theorem Shadows.consumed {calls : List Call} (h : Shadows now swept full) (hcalls : InOrder calls)
    (hnow : ∀ call ∈ calls, now.comparable call.time = true ∧ ¬call.time.before now = true) :
    swept.consumed calls = full.consumed (calls.filter fun call => !call.isSweep) := by
  induction calls generalizing now swept full with
  | nil => rfl
  | cons call rest ih =>
    obtain ⟨hlater, hrest⟩ := List.pairwise_cons.mp hcalls
    obtain ⟨hcomparable, hforward⟩ := hnow call List.mem_cons_self
    have hshadow := h.later hcomparable hforward
    cases call with
    | sweep cutoff => exact ih hshadow.sweep hrest hlater
    | consume token time =>
      exact congrArg₂ List.cons (hshadow.consume token)
        (ih (hshadow.perform (.consume token time) Bool.false_ne_true) hrest hlater)
    | redeem token time =>
      exact ih (hshadow.perform (.redeem token time) Bool.false_ne_true) hrest hlater
    | arm token workflowId nodeId time =>
      exact ih (hshadow.perform (.arm token workflowId nodeId time) Bool.false_ne_true) hrest hlater

/-- Whatever calls are made of a new cache, as long as the clock does not go back, those that consume a
token return the same as if the sweeps among the calls were left out. -/
theorem consumed_without_sweeps (baseUrl : Text) (lifetime : Int) {calls : List Call}
    (h : InOrder calls) :
    (Cache.empty baseUrl lifetime).consumed calls =
      (Cache.empty baseUrl lifetime).consumed (calls.filter fun call => !call.isSweep) := by
  cases calls with
  | nil => rfl
  | cons call rest =>
    obtain ⟨hlater, -⟩ := List.pairwise_cons.mp h
    refine (Shadows.empty baseUrl lifetime call.time).consumed h fun other hother => ?_
    rcases List.mem_cons.mp hother with rfl | hother
    · simp [Stamp.comparable, Stamp.before]
    · exact hlater other hother

/-- Sessions of two hours for `a` and `b`, with a sweep while both are live, one as the first is
consumed, and one that takes out the second before anybody asks for it. -/
def sweptThrice : List Call :=
  [.arm (text "a") (text "w") (text "n") (.ofHours 0), .sweep (.ofHours 1),
    .arm (text "b") (text "w") (text "m") (.ofHours 1), .sweep (.ofHours 2),
    .consume (text "a") (.ofHours 2), .sweep (.ofHours 4), .consume (text "b") (.ofHours 4)]

/-- With these sweeps and without them `a` is consumed in its last moment and `b` is not, whether it is
still in the cache by then or not. -/
theorem sweptThrice_consumed :
    let c := Cache.empty (text "u") 7200000000
    let calls := sweptThrice.filter fun call => !call.isSweep
    InOrder sweptThrice ∧ c.consumed sweptThrice = c.consumed calls ∧
      (c.consumed calls).map Except.toOption =
        [some (some ⟨text "a", text "w", text "n", .ofHours 2⟩), some none] ∧
      (c.after sweptThrice.dropLast).sessions = [] ∧
      (c.after calls.dropLast).sessions = [⟨text "b", text "w", text "m", .ofHours 3⟩] := by
  have hinOrder : InOrder sweptThrice := by decide +kernel
  exact ⟨hinOrder, consumed_without_sweeps _ _ hinOrder, by decide +kernel, by decide +kernel,
    by decide +kernel⟩

end Webhook

end Showrunner
