import Mathlib.Algebra.GroupWithZero.Nat
import Showrunner.Proofs.Dispatch.Batch
import Showrunner.Proofs.Dispatch.Holders
import Showrunner.Proofs.Store.Frame

/-!
# Plans side by side

The plans of a claim may be worked through by several workers. A worker that is free takes the next
plan in the order of the claim and goes through its phases, so a plan makes progress only while the
unfinished ones before it leave a worker for it. Between the phases of one plan any phases of others
may come.

What is still to be done with a plan reads and writes the row of this plan only, so the phases that
are left can be taken plan by plan in the order of the claim instead. What comes of that is changed by
no step of the pool, at the start it is what a run over the plans in order comes to, and once every
plan is over it is what the pool has come to.

A plan with a search that never ends keeps its worker for ever. Then neither the run in order comes
back, nor does the pool, whatever becomes of its other plans.
-/

namespace Showrunner

namespace Dispatch

open Recurrence (Dates)
open Store (WorksOn)
open Web (Surroundings Stage)

/-- The state that workers share, and the plans of a claim in its order, each with how far it has
come. -/
structure Pool (σ : Type) where
  state : σ
  tasks : List (Plan × Phase)

/-- The result of a plan that is over. -/
def Phase.result? : Phase → Option Plan.Result
  | .done result => some result
  | _ => none

/-- How many phases of a plan are left at most. A search that never ends leaves none. -/
def Phase.remaining : Phase → Nat
  | .waiting => 3
  | .searching => 0
  | .completing _ => 2
  | .failing _ => 1
  | .done _ => 0

namespace Pool

variable {σ : Type}

/-- No plan of a claim has been taken up yet. -/
def start (s : σ) (plans : List Plan) : Pool σ := ⟨s, plans.map fun p => (p, .waiting)⟩

/-- Take the next phase of a plan. -/
def advance (host : Host σ) (pool : Pool σ) (i : Nat) : Pool σ :=
  match pool.tasks[i]? with
  | some (p, phase) =>
      let (s, phase) := phase.proceed host p pool.state
      ⟨s, pool.tasks.set i (p, phase)⟩
  | none => pool

/-- Decide whether a plan may make progress: a phase of it is left, and the unfinished plans before it leave
a worker for it. There is one worker at least. -/
def mayAdvance (workers : Int) (pool : Pool σ) (i : Nat) : Bool :=
  (pool.tasks[i]?.any fun task => 0 < task.2.remaining) &&
    ((pool.tasks.take i).countP fun task => !task.2.isOver) < max 1 workers

/-- Decide whether the workers may take phases in an order, given by the place of the plan of each. -/
def admits (host : Host σ) (workers : Int) : List Nat → Pool σ → Bool
  | [], _ => true
  | i :: rest, pool => pool.mayAdvance workers i && admits host workers rest (pool.advance host i)

/-- Take phases in an order. -/
def follow (host : Host σ) (pool : Pool σ) (schedule : List Nat) : Pool σ :=
  schedule.foldl (advance host) pool

/-- Decide whether every plan is over. -/
def isOver (pool : Pool σ) : Bool := pool.tasks.all fun task => task.2.isOver

/-- What a pool reports, in the order of the claim. -/
def report (pool : Pool σ) : Plan.Report :=
  .ofResults (pool.tasks.filterMap fun task => task.2.result?)

/-- How many phases are left at most. -/
def remaining (pool : Pool σ) : Nat := (pool.tasks.map fun task => task.2.remaining).sum

end Pool

/-! ## Steps of a pool -/

section

variable {σ : Type} {host : Host σ} {workers : Int} {pool : Pool σ}

/-- Taking a phase leaves fewer to take. -/
theorem Phase.remaining_proceed (host : Host σ) (p : Plan) (s : σ) (phase : Phase) :
    (phase.proceed host p s).2.remaining ≤ phase.remaining - 1 := by
  cases phase with
  | waiting =>
    simp only [proceed]
    rcases attempt host p s with ⟨s, _ | fault | next⟩
    · exact Nat.zero_le 2
    · exact Nat.le_succ 1
    · exact Nat.le_refl 2
  | searching => exact Nat.le_refl 0
  | completing next =>
    simp only [proceed]
    rcases host.complete p.id next (host.now s) s with ⟨s, fault | _ | _⟩
    · exact Nat.le_refl 1
    · exact Nat.zero_le 1
    · exact Nat.zero_le 1
  | failing fault => exact Nat.le_refl 0
  | done result => exact Nat.le_refl 0

/-- No phase is left of a plan that is over. -/
theorem Phase.remaining_of_isOver {phase : Phase} (h : phase.isOver = true) : phase.remaining = 0 := by
  cases phase <;> first | rfl | cases h

/-- At most three phases are left of any plan. -/
theorem Phase.remaining_le (phase : Phase) : phase.remaining ≤ 3 := by
  cases phase <;> simp [remaining]

/-- A plan of which no phase is left stays as it is. -/
theorem Phase.proceed_of_remaining {phase : Phase} (h : phase.remaining = 0) (p : Plan) (s : σ) :
    phase.proceed host p s = (s, phase) := by
  cases phase with
  | done result => rfl
  | searching => rfl
  | waiting => cases h
  | completing next => cases h
  | failing fault => cases h

/-- A phase of the plan of a step is left, and the step leaves the other plans where they are. -/
theorem Pool.split_of_mayAdvance {i : Nat} (h : pool.mayAdvance workers i = true) :
    ∃ first p phase rest, pool.tasks = first ++ (p, phase) :: rest ∧ 0 < phase.remaining ∧
      ∀ host : Host σ, pool.advance host i = ⟨(phase.proceed host p pool.state).1,
        first ++ (p, (phase.proceed host p pool.state).2) :: rest⟩ := by
  obtain ⟨hopen, -⟩ := Bool.and_eq_true_iff.mp h
  cases htask : pool.tasks[i]? with
  | none =>
    rw [htask] at hopen
    cases hopen
  | some task =>
    obtain ⟨p, phase⟩ := task
    rw [htask, Option.any_some, decide_eq_true_eq] at hopen
    obtain ⟨hi, hget⟩ := List.getElem?_eq_some_iff.mp htask
    obtain ⟨first, rest, htasks, hlength, -⟩ := @List.exists_of_set _ i (p, phase) pool.tasks hi
    rw [hget] at htasks
    refine ⟨first, p, phase, rest, htasks, hopen, fun host => ?_⟩
    rw [Pool.advance, htask]
    simp only [htasks, ← hlength, List.set_append_right, Nat.le_refl, Nat.sub_self, List.set_cons_zero]

end

/-! ## What is left to do -/

section

variable {σ τ : Type} {host : Host σ}

/-- Take all phases of a plan that are left. -/
def Phase.finish (host : Host σ) (p : Plan) (s : σ) (phase : Phase) : σ × Phase :=
  let (s, phase) := phase.proceed host p s
  let (s, phase) := phase.proceed host p s
  phase.proceed host p s

/-- Take all phases that are left, plan by plan in the order of the claim. -/
def finishAll (host : Host σ) : List (Plan × Phase) → σ → σ × List Phase
  | [], s => (s, [])
  | (p, phase) :: rest, s =>
      let (s, last) := phase.finish host p s
      let (s, lasts) := finishAll host rest s
      (s, last :: lasts)

/-- No phase of a plan is left when all have been taken. -/
theorem Phase.remaining_finish (host : Host σ) (p : Plan) (s : σ) (phase : Phase) :
    (phase.finish host p s).2.remaining = 0 := by
  rw [Phase.finish]
  rcases hfirst : phase.proceed host p s with ⟨s₁, phase₁⟩
  rcases hsecond : phase₁.proceed host p s₁ with ⟨s₂, phase₂⟩
  have hthree := phase.remaining_le
  have hone : phase₁.remaining ≤ phase.remaining - 1 := by
    simpa only [hfirst] using phase.remaining_proceed host p s
  have htwo : phase₂.remaining ≤ phase₁.remaining - 1 := by
    simpa only [hsecond] using phase₁.remaining_proceed host p s₁
  have hnone := phase₂.remaining_proceed host p s₂
  simp only [hsecond]
  omega

/-- Taking one phase leaves the same to come of a plan. -/
theorem Phase.finish_proceed (p : Plan) (s : σ) (phase : Phase) :
    (phase.proceed host p s).2.finish host p (phase.proceed host p s).1 = phase.finish host p s :=
  -- a fourth phase finds nothing left
  Phase.proceed_of_remaining (phase.remaining_finish host p s) p (phase.finish host p s).1

/-- Nothing more comes of a plan of which no phase is left. -/
theorem Phase.finish_of_remaining {phase : Phase} (h : phase.remaining = 0) (p : Plan) (s : σ) :
    phase.finish host p s = (s, phase) := by
  simp only [finish, proceed_of_remaining h]

/-- When every plan is over, nothing is left to do. -/
theorem finishAll_of_isOver {tasks : List (Plan × Phase)}
    (h : tasks.all (fun task => task.2.isOver) = true) (s : σ) :
    finishAll host tasks s = (s, tasks.map Prod.snd) := by
  induction tasks with
  | nil => rfl
  | cons task rest ih =>
    obtain ⟨p, phase⟩ := task
    obtain ⟨hover, hrest⟩ := Bool.and_eq_true_iff.mp h
    simp only [finishAll, Phase.finish_of_remaining (Phase.remaining_of_isOver hover), ih hrest,
      List.map_cons]

/-- What is left to do of two lists is done in turn. -/
theorem finishAll_append (host : Host σ) (first rest : List (Plan × Phase)) (s : σ) :
    finishAll host (first ++ rest) s =
      ((finishAll host rest (finishAll host first s).1).1,
        (finishAll host first s).2 ++ (finishAll host rest (finishAll host first s).1).2) := by
  induction first generalizing s with
  | nil => rfl
  | cons task others ih => simp only [List.cons_append, finishAll, ih]

end

/-! ## Pools that share a store -/

section

variable {σ τ α : Type}

/-- Two results agree if they tell the same and leave states that belong together. -/
def Agree (R : σ → τ → Prop) (x : σ × α) (y : τ × α) : Prop :=
  ∃ s t a, x = (s, a) ∧ y = (t, a) ∧ R s t

/-- Two hosts do the same to states that belong together. -/
structure Host.Mirrors (R : σ → τ → Prop) (host : Host σ) (other : Host τ) : Prop where
  now : ∀ {s t}, R s t → host.now s = other.now t
  dates : ∀ {s t}, R s t → host.dates s = other.dates t
  render : ∀ p {s t}, R s t → Agree R (host.render p s) (other.render p t)
  complete : ∀ id next now {s t}, R s t →
    Agree R (host.complete id next now s) (other.complete id next now t)
  fail : ∀ id message now {s t}, R s t →
    Agree R (host.fail id message now s) (other.fail id message now t)
  warn : ∀ message {s t}, R s t → R (host.warn message s) (other.warn message t)

variable {R : σ → τ → Prop} {host : Host σ} {other : Host τ} {s : σ} {t : τ}

/-- Attempts agree. -/
theorem Host.Mirrors.attempt (h : host.Mirrors R other) (p : Plan) (hst : R s t) :
    Agree R (Dispatch.attempt host p s) (Dispatch.attempt other p t) := by
  obtain ⟨s', t', found, hs, ht, hst'⟩ := h.render p hst
  simp only [Dispatch.attempt, hs, ht]
  cases found with
  | error fault => exact ⟨s', t', _, rfl, rfl, hst'⟩
  | ok answer => exact ⟨s', t', _, rfl, by rw [h.dates hst'], hst'⟩

/-- Records of a failure agree. -/
theorem Host.Mirrors.recordFailure (h : host.Mirrors R other) (p : Plan) (fault : Fault)
    (hst : R s t) :
    Agree R (Dispatch.recordFailure host p fault s) (Dispatch.recordFailure other p fault t) := by
  have hwarned := h.warn (text "Plan " ++ p.id ++ text " failed: " ++ fault.shown) hst
  obtain ⟨s', t', done, hs, ht, hst'⟩ :=
    h.fail p.id (text "Dispatch failed: " ++ fault.shown) (host.now _) hwarned
  rw [h.now hwarned] at hs ht
  simp only [Dispatch.recordFailure, h.now hwarned, hs, ht]
  cases done with
  | error fault' => exact ⟨_, _, _, rfl, rfl, h.warn _ hst'⟩
  | ok took => exact ⟨s', t', _, rfl, rfl, hst'⟩

/-- Phases agree. -/
theorem Host.Mirrors.proceed (h : host.Mirrors R other) (p : Plan) (phase : Phase) (hst : R s t) :
    Agree R (phase.proceed host p s) (phase.proceed other p t) := by
  cases phase with
  | waiting =>
    obtain ⟨s', t', found, hs, ht, hst'⟩ := h.attempt p hst
    simp only [Phase.proceed, hs, ht]
    rcases found with _ | fault | next
    · exact ⟨s', t', _, rfl, rfl, hst'⟩
    · exact ⟨s', t', _, rfl, rfl, hst'⟩
    · exact ⟨s', t', _, rfl, rfl, hst'⟩
  | searching => exact ⟨s, t, _, rfl, rfl, hst⟩
  | completing next =>
    obtain ⟨s', t', done, hs, ht, hst'⟩ := h.complete p.id next (host.now s) hst
    simp only [Phase.proceed, hs, h.now hst ▸ ht]
    rcases done with fault | _ | _
    · exact ⟨s', t', _, rfl, rfl, hst'⟩
    · exact ⟨_, _, _, rfl, rfl, h.warn _ hst'⟩
    · exact ⟨s', t', _, rfl, rfl, hst'⟩
  | failing fault =>
    obtain ⟨s', t', result, hs, ht, hst'⟩ := h.recordFailure p fault hst
    simp only [Phase.proceed, hs, ht]
    exact ⟨s', t', _, rfl, rfl, hst'⟩
  | done result => exact ⟨s, t, _, rfl, rfl, hst⟩

/-- All that is left to do of a plan agrees. -/
theorem Host.Mirrors.finish (h : host.Mirrors R other) (p : Plan) (phase : Phase) (hst : R s t) :
    Agree R (phase.finish host p s) (phase.finish other p t) := by
  obtain ⟨s₁, t₁, phase₁, hs₁, ht₁, hst₁⟩ := h.proceed p phase hst
  obtain ⟨s₂, t₂, phase₂, hs₂, ht₂, hst₂⟩ := h.proceed p phase₁ hst₁
  simp only [Phase.finish, hs₁, ht₁, hs₂, ht₂]
  exact h.proceed p phase₂ hst₂

/-- All that is left to do agrees. -/
theorem Host.Mirrors.finishAll (h : host.Mirrors R other) (tasks : List (Plan × Phase))
    (hst : R s t) : Agree R (Dispatch.finishAll host tasks s) (Dispatch.finishAll other tasks t) := by
  induction tasks generalizing s t with
  | nil => exact ⟨s, t, [], rfl, rfl, hst⟩
  | cons task rest ih =>
    obtain ⟨p, phase⟩ := task
    obtain ⟨s₁, t₁, last, hs₁, ht₁, hst₁⟩ := h.finish p phase hst
    obtain ⟨s₂, t₂, lasts, hs₂, ht₂, hst₂⟩ := ih hst₁
    simp only [Dispatch.finishAll, hs₁, ht₁, hs₂, ht₂]
    exact ⟨s₂, t₂, _, rfl, rfl, hst₂⟩

end

/-- The renderer has its own reply for each plan, and leaves the clock and the reading of dates alone. -/
structure Undisturbed {σ : Type} (outer : Surroundings σ) (reply : Plan → Except Fault Json) :
    Prop where
  render : ∀ p outside, (outer.render p outside).2 = reply p
  clock : ∀ p outside, outer.now (outer.render p outside).1 = outer.now outside
  dates : ∀ p outside, outer.dates (outer.render p outside).1 = outer.dates outside

/-- A store as a host, with a clock that stands still, one reading of dates and a reply for each plan. -/
def storeHost (now : Stamp) (dates : Dates) (reply : Plan → Except Fault Json) : Host Store :=
  { now := fun _ => now
    dates := fun _ => dates
    claim := fun limit now staleAfter s =>
      s.keep ((s.claim limit now staleAfter).map fun claimed => (claimed.store, claimed.plans))
    render := fun p s => (s, reply p)
    complete := fun id next now s => s.keep (s.markCompleted id next now)
    fail := fun id message now s => s.keep (s.markFailed id message now)
    warn := fun _ s => s }

variable {σ : Type} {outer : Surroundings σ} {now : Stamp} {dates : Dates}
  {reply : Plan → Except Fault Json}

/-- A stage has a store, shows a time and reads dates in a way. -/
def Shows (outer : Surroundings σ) (now : Stamp) (dates : Dates) (s : Stage σ) (store : Store) : Prop :=
  s.studio.store = store ∧ outer.now s.outside = now ∧ outer.dates s.outside = dates

/-- Keeping what an operation leaves of the store of a stage is keeping it of the store. -/
theorem agree_keep {α : Type} {s : Stage σ} {store : Store} (h : Shows outer now dates s store)
    (operation : Store → Except Fault (Store × α)) :
    Agree (Shows outer now dates)
      ({ s with studio := (s.studio.keep (operation s.studio.store)).1 },
        (s.studio.keep (operation s.studio.store)).2)
      (store.keep (operation store)) := by
  obtain ⟨rfl, houtside⟩ := h
  rcases hdone : operation s.studio.store with fault | ⟨store', a⟩
  · exact ⟨_, _, .error fault, rfl, rfl, rfl, houtside⟩
  · exact ⟨_, _, .ok a, rfl, rfl, rfl, houtside⟩

/-- What a run does on a stage it does to the store of the stage. -/
theorem mirrors_storeHost (houter : Undisturbed outer reply) (now : Stamp) (dates : Dates) :
    (Web.host outer).Mirrors (Shows outer now dates) (storeHost now dates reply) where
  now := fun h => h.2.1
  dates := fun h => h.2.2
  render := fun p s store h =>
    ⟨{ s with outside := (outer.render p s.outside).1 }, store, reply p,
      congrArg (Prod.mk _) (houter.render p s.outside), rfl, h.1,
      (houter.clock p s.outside).trans h.2.1, (houter.dates p s.outside).trans h.2.2⟩
  complete := fun id next now _ _ h =>
    agree_keep h fun store => store.markCompleted id next now
  fail := fun id message now _ _ h =>
    agree_keep h fun store => store.markFailed id message now
  warn := fun _ _ _ h => h

/-! ## Work on different plans -/

/-- An attempt works on no row. -/
theorem worksOn_attempt (now : Stamp) (dates : Dates) (reply : Plan → Except Fault Json) (p : Plan) :
    WorksOn [p.id] (attempt (storeHost now dates reply) p) := by
  have hsame : attempt (storeHost now dates reply) p =
      fun s => (s, sought dates (reply p) p) := by
    funext s
    simp only [attempt, storeHost]
    cases reply p <;> rfl
  rw [hsame]
  exact Store.worksOn_pure _

/-- Recording a failure works on the row of the plan. -/
theorem worksOn_recordFailure (now : Stamp) (dates : Dates) (reply : Plan → Except Fault Json) (p : Plan)
    (fault : Fault) : WorksOn [p.id] (recordFailure (storeHost now dates reply) p fault) := by
  have hmark := Store.worksOn_markFailed p.id (text "Dispatch failed: " ++ fault.shown) now
  have hsame : recordFailure (storeHost now dates reply) p fault = fun s =>
      ((s.keep (s.markFailed p.id (text "Dispatch failed: " ++ fault.shown) now)).1,
        (⟨p.id, .failed, fault.shown⟩ : Plan.Result)) := by
    funext s
    simp only [recordFailure, storeHost]
    rcases s.keep (s.markFailed p.id (text "Dispatch failed: " ++ fault.shown) now)
      with ⟨s', fault' | took⟩
    · rfl
    · rfl
  rw [hsame]
  exact hmark.map fun _ => _

/-- The phase after an attempt. -/
def Phase.ofAttempt : Option (Except Fault (Option Stamp)) → Phase
  | none => .searching
  | some (.ok next) => .completing next
  | some (.error fault) => .failing fault

/-- The phase after a completion. -/
def Phase.ofCompletion (p : Plan) (next : Option Stamp) : Except Fault Bool → Phase
  | .ok _ => .done ⟨p.id, .success, successText next⟩
  | .error fault => .failing fault

/-- A phase works on the row of the plan. -/
theorem worksOn_proceed (now : Stamp) (dates : Dates) (reply : Plan → Except Fault Json) (p : Plan)
    (phase : Phase) : WorksOn [p.id] fun s => phase.proceed (storeHost now dates reply) p s := by
  cases phase with
  | waiting =>
    have hsame : (fun s => Phase.waiting.proceed (storeHost now dates reply) p s) = fun s =>
        ((attempt (storeHost now dates reply) p s).1,
          Phase.ofAttempt (attempt (storeHost now dates reply) p s).2) := by
      funext s
      simp only [Phase.proceed]
      rcases attempt (storeHost now dates reply) p s with ⟨s', _ | fault | next⟩
      · rfl
      · rfl
      · rfl
    rw [hsame]
    exact (worksOn_attempt now dates reply p).map Phase.ofAttempt
  | completing next =>
    have hsame : (fun s => (Phase.completing next).proceed (storeHost now dates reply) p s) = fun s =>
        ((s.keep (s.markCompleted p.id next now)).1,
          Phase.ofCompletion p next (s.keep (s.markCompleted p.id next now)).2) := by
      funext s
      simp only [Phase.proceed, storeHost]
      rcases s.keep (s.markCompleted p.id next now) with ⟨s', fault | _ | _⟩
      · rfl
      · rfl
      · rfl
    rw [hsame]
    exact (Store.worksOn_markCompleted p.id next now).map (Phase.ofCompletion p next)
  | failing fault => exact (worksOn_recordFailure now dates reply p fault).map Phase.done
  | searching => exact Store.worksOn_pure _
  | done result => exact Store.worksOn_pure _

/-- All that is left to do of a plan works on its row. -/
theorem worksOn_finish (now : Stamp) (dates : Dates) (reply : Plan → Except Fault Json) (p : Plan)
    (phase : Phase) : WorksOn [p.id] fun s => phase.finish (storeHost now dates reply) p s :=
  ((worksOn_proceed now dates reply p phase).bind fun phase =>
    worksOn_proceed now dates reply p phase).bind fun phase => worksOn_proceed now dates reply p phase

/-- All that is left to do works on the rows of the plans. -/
theorem worksOn_finishAll (now : Stamp) (dates : Dates) (reply : Plan → Except Fault Json)
    (tasks : List (Plan × Phase)) :
    WorksOn (tasks.map fun task => task.1.id) (finishAll (storeHost now dates reply) tasks) := by
  induction tasks with
  | nil => exact Store.worksOn_pure []
  | cons task rest ih =>
    obtain ⟨p, phase⟩ := task
    have hfinish : WorksOn (p.id :: rest.map fun task => task.1.id) fun s =>
        phase.finish (storeHost now dates reply) p s :=
      (worksOn_finish now dates reply p phase).mono (by simp)
    have hrest : WorksOn (p.id :: rest.map fun task => task.1.id)
        (finishAll (storeHost now dates reply) rest) :=
      ih.mono (List.subset_cons_self _ _)
    exact hfinish.bind fun last => hrest.map (last :: ·)

/-- Taking a phase of one plan before all that is left is done changes nothing. -/
theorem finishAll_proceed (now : Stamp) (dates : Dates) (reply : Plan → Except Fault Json)
    {first : List (Plan × Phase)} (rest : List (Plan × Phase)) {p : Plan} (phase : Phase)
    (hnew : p.id ∉ first.map fun task => task.1.id) (s : Store) :
    finishAll (storeHost now dates reply)
        (first ++ (p, (phase.proceed (storeHost now dates reply) p s).2) :: rest)
        (phase.proceed (storeHost now dates reply) p s).1 =
      finishAll (storeHost now dates reply) (first ++ (p, phase) :: rest) s := by
  have hdisj : [p.id].Disjoint (first.map fun task => task.1.id) :=
    List.singleton_disjoint.mpr hnew
  -- the phase may as well come after what is left to do of the plans before, and is the same there
  have hbefore := (worksOn_proceed now dates reply p phase).comm (worksOn_finishAll now dates reply first)
    hdisj s
  have hafter := (worksOn_finishAll now dates reply first).comm (worksOn_proceed now dates reply p phase)
    (List.disjoint_comm.mp hdisj) s
  have hphase : (phase.proceed (storeHost now dates reply) p s).2 =
      (phase.proceed (storeHost now dates reply) p (finishAll (storeHost now dates reply) first s).1).2 :=
    (congrArg Prod.snd hafter).symm
  rw [finishAll_append, finishAll_append, hbefore, hphase]
  simp only [finishAll, Phase.finish_proceed]

/-- A pool comes to a store and to the last phases of its plans: it does so by taking the phases that are
left plan by plan in the order of the claim. -/
structure Pool.ComesTo (outer : Surroundings σ) (now : Stamp) (dates : Dates)
    (reply : Plan → Except Fault Json) (final : Store × List Phase) (pool : Pool (Stage σ)) : Prop where
  distinct : (pool.tasks.map fun task => task.1.id).Nodup
  clock : outer.now pool.state.outside = now
  reads : outer.dates pool.state.outside = dates
  rest : finishAll (storeHost now dates reply) pool.tasks pool.state.studio.store = final

variable {workers : Int} {pool : Pool (Stage σ)} {final : Store × List Phase}

/-- No step changes what a pool comes to. -/
theorem Pool.ComesTo.advance (houter : Undisturbed outer reply)
    (hpool : pool.ComesTo outer now dates reply final) {i : Nat}
    (h : pool.mayAdvance workers i = true) :
    (pool.advance (Web.host outer) i).ComesTo outer now dates reply final := by
  obtain ⟨first, p, phase, rest, htasks, -, hadvance⟩ := Pool.split_of_mayAdvance h
  obtain ⟨hdistinct, hclock, hdates, hrest⟩ := hpool
  obtain ⟨s', store', phase', hs', hstore', rfl, hclock', hdates'⟩ :=
    (mirrors_storeHost houter now dates).proceed p phase (s := pool.state) ⟨rfl, hclock, hdates⟩
  rw [htasks] at hdistinct hrest
  simp only [hadvance, hs']
  refine ⟨?_, hclock', hdates', ?_⟩
  · simpa only [List.map_append, List.map_cons] using hdistinct
  · have hnew : p.id ∉ first.map fun task => task.1.id := by
      rw [List.map_append, List.map_cons] at hdistinct
      exact fun hmem => (List.nodup_append.mp hdistinct).2.2 p.id hmem p.id List.mem_cons_self rfl
    have hsame := finishAll_proceed now dates reply rest phase hnew pool.state.studio.store
    rw [hstore'] at hsame
    exact hsame.trans hrest

/-- No run of steps changes what a pool comes to. -/
theorem Pool.ComesTo.follow (houter : Undisturbed outer reply)
    (hpool : pool.ComesTo outer now dates reply final) {schedule : List Nat}
    (h : pool.admits (Web.host outer) workers schedule = true) :
    (pool.follow (Web.host outer) schedule).ComesTo outer now dates reply final := by
  induction schedule generalizing pool with
  | nil => exact hpool
  | cons i rest ih =>
    obtain ⟨hstep, hrest⟩ := Bool.and_eq_true_iff.mp h
    exact ih (hpool.advance houter hstep) hrest

/-- A pool that comes to a search that never ends is never over. -/
theorem Pool.ComesTo.not_isOver (hpool : pool.ComesTo outer now dates reply final)
    (hfinal : .searching ∈ final.2) : pool.isOver = false := by
  cases hover : pool.isOver with
  | false => rfl
  | true =>
    rw [← hpool.rest, finishAll_of_isOver hover] at hfinal
    obtain ⟨task, htask, hsearching⟩ := List.mem_map.mp hfinal
    have htaskOver := List.all_eq_true.mp hover task htask
    rw [hsearching] at htaskOver
    cases htaskOver

end Dispatch

end Showrunner
