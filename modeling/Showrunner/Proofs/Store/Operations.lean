import Showrunner.Proofs.Store.Rows

/-!
# Runs of operations on plans

Any number of callers create, claim, complete, fail and requeue plans, one operation after
another and each with whatever it likes to pass. A run is the list of the operations with what
their callers were told. An operation that fails leaves the store alone.

What an entry does to the row of one plan is one of five things: nothing that shows as a claim or a
finish, or the plan is created, claimed, finished or put back on the schedule. Invariants of runs
are proved by cases on these and open no operation.
-/

namespace Showrunner

namespace Store

/-- An operation on plans with all that its caller passes. -/
inductive Operation
  | create (id : Text) (draft : Plan.Draft) (now : Stamp)
  | claim (limit : Int) (now : Stamp) (staleAfter : Option Int)
  | complete (id : Text) (next : Option Stamp) (now : Stamp)
  | fail (id message : Text) (now : Stamp)
  | requeue (id : Text) (startsAt : Option Stamp)

/-- What the caller of an operation is told. -/
inductive Outcome
  | created (p : Plan)
  | claimed (plans : List Plan)
  | finished (took : Bool)
  | requeued (p : Option Plan)
  | refused (fault : Fault)

/-- Keep the store that an operation leaves and tell its result; a fault leaves the store alone. -/
def told {α : Type} (s : Store) (tell : α → Outcome) : Except Fault (Store × α) → Store × Outcome
  | .ok (s', a) => (s', tell a)
  | .error fault => (s, .refused fault)

/-- Perform an operation. -/
def Operation.perform (s : Store) : Operation → Store × Outcome
  | .create id draft now => told s .created (s.createPlan id draft now)
  | .claim limit now staleAfter =>
      told s .claimed ((s.claim limit now staleAfter).map fun c => (c.store, c.plans))
  | .complete id next now => told s .finished (s.markCompleted id next now)
  | .fail id message now => told s .finished (s.markFailed id message now)
  | .requeue id startsAt => told s .requeued (s.requeuePlan id startsAt)

/-- An entry of a run: an operation and what its caller was told. -/
structure Entry where
  op : Operation
  outcome : Outcome

/-- A run of entries leads from a store to another. -/
inductive Runs : Store → List Entry → Store → Prop
  | nil (s : Store) : Runs s [] s
  | cons {s s' : Store} {entries : List Entry} (op : Operation)
      (rest : Runs (op.perform s).1 entries s') : Runs s (⟨op, (op.perform s).2⟩ :: entries) s'

/-- The entry is a claim that returned a plan. -/
def Entry.returns (id : Text) : Entry → Bool
  | ⟨.claim _ _ _, .claimed plans⟩ => plans.any (·.id = id)
  | _ => false

/-- The entry finished a plan. -/
def Entry.finishes (id : Text) : Entry → Bool
  | ⟨.complete finished _ _, .finished took⟩ => finished = id && took
  | ⟨.fail finished _ _, .finished took⟩ => finished = id && took
  | _ => false

/-- The time of claim that an entry shows with a plan that it returned. -/
def Entry.claimedAt? (id : Text) : Entry → Option Stamp
  | ⟨.claim _ _ _, .claimed plans⟩ => (plans.find? (·.id = id)).bind (·.claimedAt)
  | _ => none

/-- A run of two parts passes through a store between them. -/
theorem runs_append {s s' : Store} {first second : List Entry} (h : Runs s (first ++ second) s') :
    ∃ between, Runs s first between ∧ Runs between second s' := by
  induction first generalizing s with
  | nil => exact ⟨s, .nil s, h⟩
  | cons entry rest ih =>
    cases h with
    | cons op hrest =>
      obtain ⟨between, hfirst, hsecond⟩ := ih hrest
      exact ⟨between, .cons op hfirst, hsecond⟩

/-- A draft for runs of one's own, with a start and perhaps a rule. -/
def sampleDraft (startsAt : Stamp) (rrule : Option Text) : Plan.Draft :=
  { userId := text "user"
    influencerId := text "influencer"
    lookId := text "look"
    prompt := text "prompt"
    title := none
    startsAt := startsAt
    rrule := rrule }

/-- What an entry does to the row of a plan. -/
inductive RowChange (id : Text) : Entry → Option PlanRow → Option PlanRow → Prop
  | kept {entry : Entry} {row : Option PlanRow} (hreturns : entry.returns id = false)
      (hfinishes : entry.finishes id = false) : RowChange id entry row row
  | created {draft : Plan.Draft} {now : Stamp} {startsAt createdAt : Wall}
      (hstarts : instantOf draft.startsAt = .ok startsAt) (hcreated : instantOf now = .ok createdAt) :
      RowChange id ⟨.create id draft now, .created (PlanRow.new id draft startsAt createdAt).toPlan⟩
        none (some (PlanRow.new id draft startsAt createdAt))
  | claimed {limit : Int} {now : Stamp} {staleAfter : Option Int} {plans : List Plan} {r : PlanRow}
      {time : Wall} {before : Option Wall} (htime : instantOf now = .ok time)
      (hbefore : staleBefore now staleAfter = .ok before) (hdue : r.isDue time before = true)
      (hplans : plans.find? (·.id = id) = some (r.claim time).toPlan) :
      RowChange id ⟨.claim limit now staleAfter, .claimed plans⟩ (some r) (some (r.claim time))
  | completed {next : Option Stamp} {now : Stamp} {next' : Option Wall} {now' : Wall} {r : PlanRow}
      (hnext : instantOf? next = .ok next') (hnow : instantOf now = .ok now')
      (hprocessing : r.status = .processing) :
      RowChange id ⟨.complete id next now, .finished true⟩ (some r) (some (r.complete next' now'))
  | failed {message : Text} {now : Stamp} {now' : Wall} {r : PlanRow}
      (hnow : instantOf now = .ok now') (hprocessing : r.status = .processing) :
      RowChange id ⟨.fail id message now, .finished true⟩ (some r) (some (r.fail message now'))
  | requeued {startsAt : Option Stamp} {start : Option Wall} {r : PlanRow}
      (hstart : instantOf? startsAt = .ok start) (hrequeueable : r.status.isRequeueable = true) :
      RowChange id ⟨.requeue id startsAt, .requeued (some (r.requeue start).toPlan)⟩ (some r)
        (some (r.requeue start))

/-- An operation does what its success does; its fault does nothing. -/
theorem rowChange_told {α : Type} {s : Store} {op : Operation} {id : Text} {tell : α → Outcome}
    {done : Except Fault (Store × α)}
    (hdone : ∀ s' a, done = .ok (s', a) → RowChange id ⟨op, tell a⟩ (s.row? id) (s'.row? id)) :
    RowChange id ⟨op, (told s tell done).2⟩ (s.row? id) ((told s tell done).1.row? id) := by
  cases done with
  | error fault => cases op <;> exact .kept rfl rfl
  | ok result => exact hdone result.1 result.2 rfl

/-- Creating a plan, as an entry. -/
theorem rowChange_create {s s' : Store} {id other : Text} {draft : Plan.Draft} {now : Stamp} {p : Plan}
    (h : s.createPlan other draft now = .ok (s', p)) :
    RowChange id ⟨.create other draft now, .created p⟩ (s.row? id) (s'.row? id) := by
  obtain ⟨hfree, startsAt, createdAt, hstarts, hcreated, rfl, hrow⟩ := row?_createPlan h
  rw [hrow]
  by_cases hid : id = other
  · subst hid
    rw [if_pos rfl, hfree]
    exact .created hstarts hcreated
  · rw [if_neg hid]
    exact .kept rfl rfl

/-- A claim, as an entry. -/
theorem rowChange_claim {s : Store} (hs : s.Keyed) (id : Text) {limit : Int} {now : Stamp}
    {staleAfter : Option Int} {claimed : Claimed}
    (h : s.claim limit now staleAfter = .ok claimed) :
    RowChange id ⟨.claim limit now staleAfter, .claimed claimed.plans⟩ (s.row? id)
      (claimed.store.row? id) := by
  cases hfound : claimed.plans.find? (·.id = id) with
  | none =>
    have hnone : ∀ p ∈ claimed.plans, p.id ≠ id := by simpa using hfound
    have hid : id ∉ claimed.plans.map Plan.id := fun hmem => by
      obtain ⟨p, hp, heq⟩ := List.mem_map.mp hmem
      exact hnone p hp heq
    rw [row?_claim_of_not_mem hs h hid]
    refine .kept ?_ rfl
    simpa [Entry.returns] using hnone
  | some p =>
    have hp : p ∈ claimed.plans := List.mem_of_find?_eq_some hfound
    have hpid : p.id = id := by simpa using List.find?_some hfound
    obtain ⟨r, time, before, htime, hbefore, hrow, hdue, rfl, hrow', -⟩ :=
      row?_claim_of_mem hs h hp
    rw [hpid] at hrow hrow'
    rw [hrow, hrow']
    exact .claimed htime hbefore hdue hfound

/-- Finishing, as an entry. -/
theorem rowChange_finish {s s' : Store} (hs : s.Keyed) {op : Operation} {id finished : Text}
    {texts : List Text} {f : PlanRow → PlanRow} {took : Bool} (hf : ∀ r, (f r).id = r.id)
    (h : s.finish finished texts f = .ok (s', took))
    (hreturns : Entry.returns id ⟨op, .finished took⟩ = false)
    (hfinishes : Entry.finishes id ⟨op, .finished took⟩ = (finished = id && took))
    (hchange : ∀ r, finished = id → r.status = .processing →
      RowChange id ⟨op, .finished true⟩ (some r) (some (f r))) :
    RowChange id ⟨op, .finished took⟩ (s.row? id) (s'.row? id) := by
  cases took with
  | false =>
    rw [finish_false h]
    exact .kept hreturns (by simp [hfinishes])
  | true =>
    obtain ⟨r, hr, hprocessing⟩ := (finish_took hs h).mp rfl
    by_cases hid : finished = id
    · subst hid
      rw [row?_finish hf h hr hprocessing, hr]
      exact hchange r rfl hprocessing
    · rw [row?_finish_of_ne hf h (Ne.symm hid)]
      exact .kept hreturns (by simp [hfinishes, hid])

/-- Putting a plan back on the schedule, as an entry. -/
theorem rowChange_requeue {s s' : Store} (hs : s.Keyed) {id other : Text} {startsAt : Option Stamp}
    {result : Option Plan} (h : s.requeuePlan other startsAt = .ok (s', result)) :
    RowChange id ⟨.requeue other startsAt, .requeued result⟩ (s.row? id) (s'.row? id) := by
  by_cases hid : id = other
  · subst hid
    cases result with
    | none =>
      rw [requeuePlan_none h]
      exact .kept rfl rfl
    | some p =>
      obtain ⟨r, start, hstart, hrow, hrequeueable, hrow', rfl⟩ := row?_requeuePlan hs h
      rw [hrow, hrow']
      exact .requeued hstart hrequeueable
  · rw [row?_requeuePlan_of_ne h hid]
    exact .kept rfl rfl

/-- Every operation does to the row of a plan what an entry can do. -/
theorem rowChange_perform {s : Store} (hs : s.Keyed) (op : Operation) (id : Text) :
    RowChange id ⟨op, (op.perform s).2⟩ (s.row? id) ((op.perform s).1.row? id) := by
  cases op with
  | create other draft now => exact rowChange_told fun s' p h => rowChange_create h
  | claim limit now staleAfter =>
    refine rowChange_told fun s' plans h => ?_
    obtain ⟨claimed, hclaimed, hresult⟩ := map_eq_ok.mp h
    cases hresult
    exact rowChange_claim hs id hclaimed
  | complete other next now =>
    refine rowChange_told fun s' took h => ?_
    obtain ⟨next', now', hnext, hnow, hfinish⟩ := markCompleted_ok h
    refine rowChange_finish hs (PlanRow.id_complete next' now') hfinish rfl rfl ?_
    rintro r rfl hprocessing
    exact .completed hnext hnow hprocessing
  | fail other message now =>
    refine rowChange_told fun s' took h => ?_
    obtain ⟨now', hnow, hfinish⟩ := markFailed_ok h
    refine rowChange_finish hs (PlanRow.id_fail message now') hfinish rfl rfl ?_
    rintro r rfl hprocessing
    exact .failed hnow hprocessing
  | requeue other startsAt => exact rowChange_told fun s' result h => rowChange_requeue hs h

/-- An operation keeps ids distinct if its success does. -/
theorem keyed_told {α : Type} {s : Store} (hs : s.Keyed) {tell : α → Outcome}
    {done : Except Fault (Store × α)} (hdone : ∀ s' a, done = .ok (s', a) → s'.Keyed) :
    (told s tell done).1.Keyed := by
  cases done with
  | error fault => exact hs
  | ok result => exact hdone result.1 result.2 rfl

/-- Every operation keeps ids distinct. -/
theorem keyed_perform {s : Store} (hs : s.Keyed) (op : Operation) : (op.perform s).1.Keyed := by
  cases op with
  | create id draft now => exact keyed_told hs fun s' p h => keyed_createPlan hs h
  | claim limit now staleAfter =>
    refine keyed_told hs fun s' plans h => ?_
    obtain ⟨claimed, hclaimed, hresult⟩ := map_eq_ok.mp h
    cases hresult
    exact keyed_claim hs hclaimed
  | complete id next now =>
    refine keyed_told hs fun s' took h => ?_
    obtain ⟨next', now', -, -, hfinish⟩ := markCompleted_ok h
    exact keyed_finish hs (PlanRow.id_complete next' now') hfinish
  | fail id message now =>
    refine keyed_told hs fun s' took h => ?_
    obtain ⟨now', -, hfinish⟩ := markFailed_ok h
    exact keyed_finish hs (PlanRow.id_fail message now') hfinish
  | requeue id startsAt => exact keyed_told hs fun s' result h => keyed_requeuePlan hs h

/-- Every run keeps ids distinct. -/
theorem keyed_runs {s s' : Store} {entries : List Entry} (hs : s.Keyed) (h : Runs s entries s') :
    s'.Keyed := by
  induction h with
  | nil s => exact hs
  | cons op _ ih => exact ih (keyed_perform hs op)

end Store

end Showrunner
