import Mathlib.Data.List.Induction
import Showrunner.Dispatch.Run
import Showrunner.Proofs.Store.Rows
import Showrunner.Recurrence.DateText

/-!
# Runs that overlap

A run works through each plan of its claim in at most three phases: it renders the plan, completes
it, and fails it if either went wrong. If the search for the next start of a plan never ends, the run
stays with the plan for ever. Any number of runs work over one store, and whoever is next
takes one phase of one plan; plans are created and put back on the schedule in between. The plans
of one run may be worked through in order or side by side.

The world keeps the store, a journal of what happened to plans, and the plans that runs have
claimed, each with the phase that comes next. What a phase meets is part of the move that takes
it: the clock, how dates are read, the answer of the renderer, and an outage of the store.
-/

namespace Showrunner

namespace Dispatch

/-- How far a run has come with a plan that it claimed. A run that searches does so for ever. -/
inductive Phase
  | waiting
  | searching
  | completing (next : Option Stamp)
  | failing (fault : Fault)
  | done (result : Plan.Result)

/-- Take the next phase of a plan. -/
def Phase.proceed {σ : Type} (host : Host σ) (p : Plan) (s : σ) : Phase → σ × Phase
  | .waiting =>
      match attempt host p s with
      | (s, none) => (s, .searching)
      | (s, some (.ok next)) => (s, .completing next)
      | (s, some (.error fault)) => (s, .failing fault)
  | .searching => (s, .searching)
  | .completing next =>
      match host.complete p.id next (host.now s) s with
      | (s, .error fault) => (s, .failing fault)
      | (s, .ok true) => (s, .done ⟨p.id, .success, successText next⟩)
      | (s, .ok false) =>
          (host.warn
              (text "Plan " ++ p.id ++ text " was no longer processing; completion not recorded") s,
            .done ⟨p.id, .success, successText next⟩)
  | .failing fault =>
      let (s, result) := recordFailure host p fault s
      (s, .done result)
  | .done result => (s, .done result)

/-- The phase in which a run leaves a plan. -/
def Phase.last : Option Plan.Result → Phase
  | some result => .done result
  | none => .searching

/-- Three phases work through a plan. -/
theorem runPlan_eq_phases {σ : Type} (host : Host σ) (p : Plan) (s : σ) :
    let rendered := Phase.waiting.proceed host p s
    let completed := rendered.2.proceed host p rendered.1
    let failed := completed.2.proceed host p completed.1
    failed = ((runPlan host p s).1, .last (runPlan host p s).2) := by
  simp only [Phase.proceed, runPlan]
  rcases attempt host p s with ⟨s₁, _ | fault | next⟩
  · rfl
  · rfl
  · simp only [settle]
    rcases host.complete p.id next (host.now s₁) s₁ with ⟨s₂, fault | _ | _⟩
    · rfl
    · rfl
    · rfl

/-- What happened to a plan. -/
inductive Note
  | created (p : Plan)
  | requeued (p : Plan) (anew : Bool)
  | claimed (run : Nat) (p : Plan) (taken : Bool)
  | called (run : Nat) (p : Plan)
  | finished (run : Nat) (id : Text) (took : Bool)
deriving DecidableEq, Repr

/-- The plan that a note is about. -/
def Note.id : Note → Text
  | .created p => p.id
  | .requeued p _ => p.id
  | .claimed _ p _ => p.id
  | .called _ p => p.id
  | .finished _ id _ => id

/-- The store, and what happened to its plans. -/
structure Journal where
  store : Store
  notes : List Note

/-- What a phase meets. -/
structure Circumstances where
  now : Stamp
  dates : Recurrence.Dates
  reply : Except Fault Json
  outage : Option Fault

/-- An operation of the store fails while there is an outage. -/
def Circumstances.reach {α : Type} (c : Circumstances) (operation : Except Fault α) :
    Except Fault α :=
  match c.outage with
  | some fault => .error fault
  | none => operation

/-- Keep what an operation that finishes a plan leaves, and note it. -/
def Journal.finish (j : Journal) (run : Nat) (id : Text) :
    Except Fault (Store × Bool) → Journal × Except Fault Bool
  | .ok (s, took) => (⟨s, j.notes ++ [.finished run id took]⟩, .ok took)
  | .error fault => (j, .error fault)

/-- A run that works on the journal. -/
def host (run : Nat) (c : Circumstances) : Host Journal :=
  { now := fun _ => c.now
    dates := fun _ => c.dates
    claim := fun limit now staleAfter j =>
      match c.reach (j.store.claim limit now staleAfter) with
      | .ok claimed =>
          (⟨claimed.store, j.notes ++
              claimed.plans.map fun p => .claimed run p (claimed.reclaimed.contains p.id)⟩,
            .ok claimed.plans)
      | .error fault => (j, .error fault)
    render := fun p j => ({ j with notes := j.notes ++ [.called run p] }, c.reply)
    complete := fun id next now j => j.finish run id (c.reach (j.store.markCompleted id next now))
    fail := fun id message now j => j.finish run id (c.reach (j.store.markFailed id message now))
    warn := fun _ j => j }

/-- A plan that a run claimed, and how far the run has come with it. -/
structure Task where
  run : Nat
  plan : Plan
  phase : Phase

/-- The journal, the claimed plans, and how many runs there were. -/
structure World where
  journal : Journal
  tasks : List Task
  runs : Nat

/-- What may happen next. -/
inductive Move
  | create (id : Text) (draft : Plan.Draft) (now : Stamp)
  | requeue (id : Text) (startsAt : Option Stamp)
  | claim (limit : Int) (staleAfter : Option Int) (c : Circumstances)
  | proceed (task : Nat) (c : Circumstances)

/-- A move that takes over no plan, however long ago it was claimed. -/
def Move.Patient : Move → Prop
  | .claim _ staleAfter _ => staleAfter = none
  | _ => True

/-- How dates are read when a move takes a phase. -/
def Move.dates? : Move → Option Recurrence.Dates
  | .proceed _ c => some c.dates
  | _ => none

/-- Make a move. -/
def World.step (w : World) : Move → World
  | .create id draft now =>
      match w.journal.store.createPlan id draft now with
      | .ok (s, p) => { w with journal := ⟨s, w.journal.notes ++ [.created p]⟩ }
      | .error _ => w
  | .requeue id startsAt =>
      match w.journal.store.requeuePlan id startsAt with
      | .ok (s, some p) => { w with journal := ⟨s, w.journal.notes ++ [.requeued p startsAt.isSome]⟩ }
      | .ok (s, none) => { w with journal := ⟨s, w.journal.notes⟩ }
      | .error _ => w
  | .claim limit staleAfter c =>
      match (host w.runs c).claim limit c.now staleAfter w.journal with
      | (j, .ok plans) =>
          { journal := j
            tasks := w.tasks ++ plans.map fun p => ⟨w.runs, p, .waiting⟩
            runs := w.runs + 1 }
      | (j, .error _) => { w with journal := j, runs := w.runs + 1 }
  | .proceed i c =>
      match w.tasks[i]? with
      | some task =>
          let (j, phase) := task.phase.proceed (host task.run c) task.plan w.journal
          { w with journal := j, tasks := w.tasks.set i { task with phase := phase } }
      | none => w

/-- Taking the next phase of a task leaves the other tasks where they are. -/
theorem step_proceed (j : Journal) (first rest : List Task) (task : Task) (runs : Nat)
    (c : Circumstances) :
    World.step ⟨j, first ++ task :: rest, runs⟩ (.proceed first.length c) =
      ⟨(task.phase.proceed (host task.run c) task.plan j).1,
        first ++ { task with phase := (task.phase.proceed (host task.run c) task.plan j).2 } :: rest,
        runs⟩ := by
  simp [World.step]

/-- Taking three phases of each waiting task in turn, up to one whose search never ends, works through their
plans. -/
theorem exists_moves_runPlans (c : Circumstances) (run runs : Nat) (plans : List Plan) (j : Journal)
    (first : List Task) :
    ∃ moves : List Move,
      (moves.foldl World.step ⟨j, first ++ plans.map fun p => ⟨run, p, .waiting⟩, runs⟩).journal =
        (runPlans (host run c) plans j).1 := by
  induction plans generalizing j first with
  | nil => exact ⟨[], rfl⟩
  | cons p rest ih =>
    have hphases := runPlan_eq_phases (host run c) p j
    rcases hrun : runPlan (host run c) p j with ⟨j', _ | result⟩
    · refine ⟨[.proceed first.length c, .proceed first.length c, .proceed first.length c], ?_⟩
      simp only [List.map_cons, List.foldl_cons, List.foldl_nil, step_proceed, hphases, hrun, runPlans]
    · obtain ⟨moves, hmoves⟩ := ih j' (first ++ [⟨run, p, .done result⟩])
      refine ⟨.proceed first.length c :: .proceed first.length c :: .proceed first.length c :: moves, ?_⟩
      rw [List.append_assoc, List.singleton_append] at hmoves
      simp only [List.map_cons, List.foldl_cons, step_proceed, hphases, hrun, Phase.last, hmoves, runPlans]

/-- A run that nothing interrupts is a claim and the phases of its plans in turn. -/
theorem exists_moves_run (w : World) (c : Circumstances) (limit : Int) (staleAfter : Option Int) :
    ∃ moves : List Move, (moves.foldl World.step w).journal =
      (run (host w.runs c) limit staleAfter w.journal).1 := by
  cases hreach : c.reach (w.journal.store.claim limit c.now staleAfter) with
  | error fault =>
    refine ⟨[.claim limit staleAfter c], ?_⟩
    simp only [List.foldl_cons, List.foldl_nil, World.step, run, host, hreach]
  | ok claimed =>
    obtain ⟨moves, hmoves⟩ := exists_moves_runPlans c w.runs (w.runs + 1) claimed.plans
      ⟨claimed.store, w.journal.notes ++ claimed.plans.map fun p =>
        .claimed w.runs p (claimed.reclaimed.contains p.id)⟩ w.tasks
    refine ⟨.claim limit staleAfter c :: moves, ?_⟩
    simp only [List.foldl_cons, World.step, run, host, hreach]
    exact hmoves

/-- The world before anything happened. -/
def World.start : World := ⟨⟨Store.empty, []⟩, [], 0⟩

/-- The world after some moves. -/
def World.after (moves : List Move) : World := moves.foldl World.step World.start

/-- Circumstances in which nothing fails. -/
def smooth (now : Stamp) : Circumstances := ⟨now, .on now.wall.date, .ok .null, none⟩

/-- What holds at the start and is kept by every move holds after all moves. -/
theorem World.after_of_step {P : World → Prop} (hstart : P World.start) {moves : List Move}
    (hstep : ∀ w, ∀ move ∈ moves, P w → P (w.step move)) : P (World.after moves) := by
  induction moves using List.reverseRecOn with
  | nil => exact hstart
  | append_singleton moves move ih =>
    have hrest := ih fun w m hm => hstep w m (List.mem_append_left _ hm)
    unfold World.after
    rw [List.foldl_append]
    exact hstep _ move (List.mem_append_right _ List.mem_cons_self) hrest

end Dispatch

end Showrunner
