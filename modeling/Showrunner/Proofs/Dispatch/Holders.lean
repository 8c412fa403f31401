import Showrunner.Proofs.Dispatch.Turns

/-!
# Who holds a plan

A run holds a plan from its claim until the plan is finished or claimed by another run. The row
does not name the holder: it only says that the plan is being processed, which is so exactly while
some run holds it. Everything that a run does to a plan goes back to its claim.

As long as no plan is taken over, a run that is not done with a plan holds it, and the plan is as
the run claimed it. A takeover ends this, because the run that lost the plan goes on with it.
-/

namespace Showrunner

namespace Dispatch

open Store (PlanRow)

/-- The holder of a plan after a note about it. -/
def holderAfter (holder : Option Nat) : Note → Option Nat
  | .claimed run _ _ => some run
  | .finished _ _ true => none
  | _ => holder

/-- The run that holds a plan, by the notes about it. -/
def holderOf (notes : List Note) : Option Nat := notes.foldl holderAfter none

/-- The note lets a run begin or cease to hold its plan. -/
def Note.unsettles : Note → Bool
  | .claimed _ _ _ => true
  | .finished _ _ took => took
  | _ => false

/-- The claim that a note reports. -/
def Note.claim? : Note → Option (Nat × Plan)
  | .claimed run p _ => some (run, p)
  | _ => none

/-- The run whose claim of a plan is the latest, by the notes about it. -/
def latestClaim (notes : List Note) : Option Nat :=
  (notes.filterMap Note.claim?).getLast?.map Prod.fst

/-- The call of the renderer that a note reports. -/
def Note.call? : Note → Option (Nat × Plan)
  | .called run p => some (run, p)
  | _ => none

/-- The note reports a new plan. -/
def Note.isCreation : Note → Bool
  | .created _ => true
  | _ => false

/-- The note reports that a plan was taken over from a run that did not finish it. -/
def Note.takesOver : Note → Bool
  | .claimed _ _ taken => taken
  | _ => false

/-- The claim that a task goes back to. -/
def Task.claim (task : Task) : Nat × Plan := (task.run, task.plan)

/-- The run is done with the plan. -/
def Phase.isOver : Phase → Bool
  | .done _ => true
  | _ => false

/-- One more note decides on the holder. -/
theorem holderOf_append (notes : List Note) (note : Note) :
    holderOf (notes ++ [note]) = holderAfter (holderOf notes) note := by
  simp [holderOf]

/-- A run that claimed a plan holds it exactly if nothing has unsettled it since. -/
theorem holder_eq_iff {notes : List Note} {holder : Option Nat} {run : Nat}
    (hclaims : ∀ claim ∈ notes.filterMap Note.claim?, claim.1 ≠ run) :
    notes.foldl holderAfter holder = some run ↔
      holder = some run ∧ ∀ note ∈ notes, note.unsettles = false := by
  induction notes generalizing holder with
  | nil => simp
  | cons note rest ih =>
    have hrest : ∀ claim ∈ rest.filterMap Note.claim?, claim.1 ≠ run := by
      intro claim hclaim
      obtain ⟨other, hother, heq⟩ := List.mem_filterMap.mp hclaim
      exact hclaims claim (List.mem_filterMap.mpr ⟨other, List.mem_cons_of_mem _ hother, heq⟩)
    rw [List.foldl_cons, ih hrest, List.forall_mem_cons, ← and_assoc]
    refine and_congr_left fun _ => ?_
    cases note with
    | created p => simp [holderAfter, Note.unsettles]
    | requeued p anew => simp [holderAfter, Note.unsettles]
    | claimed other p taken =>
      have hne : other ≠ run := hclaims (other, p) (by simp [Note.claim?])
      simp [holderAfter, Note.unsettles, hne]
    | called other p => simp [holderAfter, Note.unsettles]
    | finished other id took => cases took <;> simp [holderAfter, Note.unsettles]

/-- The holder of a plan has made the latest claim of it. -/
theorem latestClaim_of_holder {notes : List Note} {run : Nat} (h : holderOf notes = some run) :
    latestClaim notes = some run := by
  induction notes using List.reverseRecOn with
  | nil => cases h
  | append_singleton notes note ih =>
    rw [holderOf_append] at h
    unfold latestClaim at ih ⊢
    rw [List.filterMap_append]
    cases note with
    | created p => simpa [Note.claim?] using ih h
    | requeued p anew => simpa [Note.claim?] using ih h
    | claimed other p taken =>
      cases h
      simp [Note.claim?]
    | called other p => simpa [Note.claim?] using ih h
    | finished other id took =>
      cases took with
      | true => cases h
      | false => simpa [Note.claim?] using ih h

/-- A finished plan is not being processed. -/
theorem Phase.Ends.status_ne {phase : Phase} {r r' : PlanRow} (h : phase.Ends r r') :
    r'.status ≠ .processing := by
  cases h with
  | completed now hnext =>
    unfold PlanRow.complete
    split <;> exact fun h => nomatch h
  | failed message now => exact fun h => nomatch h

/-- A phase that ends a plan is not over. -/
theorem Phase.Ends.not_isOver {phase : Phase} {r r' : PlanRow} (h : phase.Ends r r') :
    phase.isOver = false := by
  cases h <;> rfl

/-- A phase that is about to finish a plan is not over. -/
theorem Phase.not_isOver_of_isFinishing {phase : Phase} (h : phase.isFinishing = true) :
    phase.isOver = false := by
  cases phase <;> first | rfl | cases h

/-- The plan is being processed. -/
def View.Processing (v : View) : Prop := ∃ r, v.row = some r ∧ r.status = .processing

/-- A plan is being processed in the world. -/
def World.Processes (w : World) (id : Text) : Prop :=
  ∃ r, w.journal.store.row? id = some r ∧ r.status = .processing

/-- A plan is being processed exactly while a run holds it. -/
def View.Held (v : View) : Prop := v.Processing ↔ (holderOf v.notes).isSome = true

/-- A plan without a row has no notes and no tasks. -/
def View.Fresh (v : View) : Prop := v.row = none → v.notes = [] ∧ v.tasks = []

/-- The tasks go back to the claims that the notes report, in the same order, and each of them to
another run. -/
structure View.Traced (v : View) : Prop where
  claims : v.notes.filterMap Note.claim? = v.tasks.map Task.claim
  increasing : (v.tasks.map Task.claim).Pairwise (·.1 < ·.1)
  below : ∀ claim ∈ v.tasks.map Task.claim, claim.1 < v.runs

/-- Every call was made for the plan that the run had claimed, and no call yet for a waiting
task. -/
structure View.Counted (v : View) : Prop where
  claimed : ∀ call ∈ v.notes.filterMap Note.call?, call ∈ v.tasks.map Task.claim
  waiting : ∀ task ∈ v.tasks, task.phase = .waiting →
    ∀ call ∈ v.notes.filterMap Note.call?, call.1 ≠ task.run

/-- A run that is not done with the plan holds it as it claimed it. -/
def View.Exclusive (v : View) : Prop :=
  ∀ task ∈ v.tasks, task.phase.isOver = false →
    holderOf v.notes = some task.run ∧ ∃ r, v.row = some r ∧ task.plan = r.toPlan

/-- No plan was taken over. -/
def View.Untaken (v : View) : Prop := ∀ note ∈ v.notes, note.takesOver = false

section

variable {id : Text} {move : Move} {v v' : View}

/-- A plan whose row says otherwise is not being processed. -/
theorem View.not_processing {r : PlanRow} (hrow : v.row = some r) (hstatus : r.status ≠ .processing) :
    ¬ v.Processing := by
  rintro ⟨r', hr', hprocessing⟩
  cases hrow.symm.trans hr'
  exact hstatus hprocessing

/-- The task that takes a phase is one of the tasks. -/
theorem mem_tasks {first rest : List Task} {task : Task} (h : v.tasks = first ++ task :: rest) :
    task ∈ v.tasks :=
  h ▸ List.mem_append_right _ List.mem_cons_self

/-- A plan with a task has a row. -/
theorem View.Fresh.row_ne_none (hv : v.Fresh) {first rest : List Task} {task : Task}
    (htasks : v.tasks = first ++ task :: rest) : v.row ≠ none := by
  intro hrow
  have hmem := mem_tasks htasks
  rw [(hv hrow).2] at hmem
  cases hmem

/-- A turn keeps a plan that has a row in the table. -/
theorem Turn.fresh (h : Turn id move v v') (hv : v.Fresh) : v'.Fresh := by
  intro hrow
  cases h with
  | passed hruns => exact hv hrow
  | created hfree => cases hrow
  | requeued hsome hrequeueable => cases hrow
  | claimed hsome hstatus hpatient => cases hrow
  | called htasks hdates hphase => exact absurd hrow (hv.row_ne_none htasks)
  | finished htasks hsome hprocessing hends => cases hrow
  | lapsed htasks hfinishing hfree => exact absurd hrow (hv.row_ne_none htasks)
  | faulted htasks hfinishing hpast => exact absurd hrow (hv.row_ne_none htasks)

/-- A turn keeps that a plan is being processed exactly while it is held. -/
theorem Turn.held (h : Turn id move v v') (hfresh : v.Fresh) (hv : v.Held) : v'.Held := by
  cases h with
  | passed hruns => exact hv
  | created hfree =>
    have hnotes := (hfresh hfree).1
    unfold View.Held View.Processing
    rw [holderOf_append, hnotes]
    simp [holderAfter, holderOf, PlanRow.new]
  | requeued hrow hrequeueable =>
    have hfree := View.not_processing hrow (Store.ne_processing_of_isRequeueable hrequeueable)
    have hnone : (holderOf v.notes).isSome ≠ true := fun hsome => hfree (hv.mpr hsome)
    unfold View.Held View.Processing
    rw [holderOf_append]
    simp [holderAfter, PlanRow.requeue, hnone]
  | claimed hrow hstatus hpatient =>
    unfold View.Held View.Processing
    rw [holderOf_append]
    simp [holderAfter, PlanRow.claim]
  | called htasks hdates hphase =>
    unfold View.Held View.Processing
    rw [holderOf_append]
    exact hv
  | finished htasks hrow hprocessing hends =>
    unfold View.Held View.Processing
    rw [holderOf_append]
    simp [holderAfter, hends.status_ne]
  | lapsed htasks hfinishing hfree =>
    unfold View.Held View.Processing
    rw [holderOf_append]
    exact hv
  | faulted htasks hfinishing hphase => exact hv

/-- Changing the phase of a task leaves the claims of the tasks alone. -/
theorem map_claim_phase (first rest : List Task) (task : Task) (phase : Phase) :
    (first ++ { task with phase := phase } :: rest).map Task.claim =
      (first ++ task :: rest).map Task.claim := by
  simp [Task.claim]

/-- A turn adds the claim of a new run, to the notes and to the tasks, or adds no claim. -/
theorem Turn.claims (h : Turn id move v v') :
    (v'.notes.filterMap Note.claim? = v.notes.filterMap Note.claim? ∧
      v'.tasks.map Task.claim = v.tasks.map Task.claim ∧ v.runs ≤ v'.runs) ∨
    ∃ p, v'.notes.filterMap Note.claim? = v.notes.filterMap Note.claim? ++ [(v.runs, p)] ∧
      v'.tasks.map Task.claim = v.tasks.map Task.claim ++ [(v.runs, p)] ∧
      v'.runs = v.runs + 1 := by
  cases h with
  | passed hruns => exact .inl ⟨rfl, rfl, hruns⟩
  | created hfree => exact .inl ⟨by simp [Note.claim?], rfl, Nat.le_refl _⟩
  | requeued hrow hrequeueable => exact .inl ⟨by simp [Note.claim?], rfl, Nat.le_refl _⟩
  | @claimed r time hrow hstatus hpatient =>
    exact .inr ⟨(r.claim time).toPlan, by simp [Note.claim?], by simp [Task.claim], rfl⟩
  | called htasks hdates hphase =>
    rw [htasks]
    exact .inl ⟨by simp [Note.claim?], map_claim_phase _ _ ⟨_, _, .waiting⟩ _, Nat.le_refl _⟩
  | finished htasks hrow hprocessing hends =>
    rw [htasks]
    exact .inl ⟨by simp [Note.claim?], map_claim_phase _ _ _ _, Nat.le_refl _⟩
  | lapsed htasks hfinishing hfree =>
    rw [htasks]
    exact .inl ⟨by simp [Note.claim?], map_claim_phase _ _ _ _, Nat.le_refl _⟩
  | faulted htasks hfinishing hphase =>
    rw [htasks]
    exact .inl ⟨rfl, map_claim_phase _ _ _ _, Nat.le_refl _⟩

/-- A turn keeps the tasks at the claims that the notes report. -/
theorem Turn.traced (h : Turn id move v v') (hv : v.Traced) : v'.Traced := by
  rcases h.claims with ⟨hnotes, htasks, hruns⟩ | ⟨p, hnotes, htasks, hruns⟩
  · refine ⟨?_, ?_, ?_⟩
    · rw [hnotes, htasks, hv.claims]
    · rw [htasks]
      exact hv.increasing
    · rw [htasks]
      exact fun claim hclaim => Nat.lt_of_lt_of_le (hv.below claim hclaim) hruns
  · refine ⟨?_, ?_, ?_⟩
    · rw [hnotes, htasks, hv.claims]
    · rw [htasks]
      refine List.pairwise_append.mpr ⟨hv.increasing, List.pairwise_singleton _ _, ?_⟩
      intro claim hclaim new hnew
      rw [List.mem_singleton.mp hnew]
      exact hv.below claim hclaim
    · rw [htasks, hruns]
      intro claim hclaim
      rcases List.mem_append.mp hclaim with hold | hnew
      · exact Nat.lt_succ_of_lt (hv.below claim hold)
      · rw [List.mem_singleton.mp hnew]
        exact Nat.lt_succ_self v.runs

/-- No other task has the run of a task. -/
theorem View.Traced.run_ne (hv : v.Traced) {first rest : List Task} {task other : Task}
    (htasks : v.tasks = first ++ task :: rest) (hother : other ∈ first ∨ other ∈ rest) :
    other.run ≠ task.run := by
  have hincreasing := hv.increasing
  rw [htasks, List.map_append, List.map_cons] at hincreasing
  obtain ⟨-, hrest, hacross⟩ := List.pairwise_append.mp hincreasing
  rcases hother with hfirst | hlater
  · exact Nat.ne_of_lt (hacross _ (List.mem_map_of_mem hfirst) _ List.mem_cons_self)
  · exact Nat.ne_of_gt ((List.pairwise_cons.mp hrest).1 _ (List.mem_map_of_mem hlater))

/-- The notes report the claim that a task goes back to, and no other claim of its run. -/
theorem View.Traced.split (hv : v.Traced) {task : Task} (htask : task ∈ v.tasks) :
    ∃ before taken between, v.notes = before ++ Note.claimed task.run task.plan taken :: between ∧
      ∀ claim ∈ between.filterMap Note.claim?, claim.1 ≠ task.run := by
  obtain ⟨first, rest, htasks⟩ := List.append_of_mem htask
  have hclaims := hv.claims
  rw [htasks, List.map_append, List.map_cons] at hclaims
  obtain ⟨earlier, later, hnotes, -, hlater⟩ := List.filterMap_eq_append_iff.mp hclaims
  obtain ⟨gap, note, between, rfl, -, hnote, hbetween⟩ := List.filterMap_eq_cons_iff.mp hlater
  cases note with
  | claimed run p taken =>
    cases hnote
    refine ⟨earlier ++ gap, taken, between, by rw [hnotes, List.append_assoc], ?_⟩
    rw [hbetween]
    intro claim hclaim
    obtain ⟨other, hother, rfl⟩ := List.mem_map.mp hclaim
    exact hv.run_ne htasks (.inr hother)
  | created p => cases hnote
  | requeued p anew => cases hnote
  | called run p => cases hnote
  | finished run id took => cases hnote

/-- The tasks after a phase was taken are the one that took it and others that have other runs. -/
theorem View.Traced.cases_of_mem (hv : v.Traced) {first rest : List Task} {task new other : Task}
    (htasks : v.tasks = first ++ task :: rest) (hother : other ∈ first ++ new :: rest) :
    other = new ∨ (other ∈ v.tasks ∧ other.run ≠ task.run) := by
  rcases List.mem_append.mp hother with hfirst | hlater
  · exact .inr ⟨htasks ▸ List.mem_append_left _ hfirst, hv.run_ne htasks (.inl hfirst)⟩
  · rcases List.mem_cons.mp hlater with heq | hrest
    · exact .inl heq
    · exact .inr ⟨htasks ▸ List.mem_append_right _ (List.mem_cons_of_mem _ hrest),
        hv.run_ne htasks (.inr hrest)⟩

/-- A turn adds no call, and waits for no more than it did, unless for a new run; or it adds the
call for a task that waited, and does not wait for it any more. -/
theorem Turn.calls (h : Turn id move v v') (htraced : v.Traced) :
    (v'.notes.filterMap Note.call? = v.notes.filterMap Note.call? ∧
      ∀ task ∈ v'.tasks, task.phase = .waiting → task ∈ v.tasks ∨ task.run = v.runs) ∨
    ∃ run p, v'.notes.filterMap Note.call? = v.notes.filterMap Note.call? ++ [(run, p)] ∧
      ⟨run, p, .waiting⟩ ∈ v.tasks ∧
      ∀ task ∈ v'.tasks, task.phase = .waiting → task ∈ v.tasks ∧ task.run ≠ run := by
  cases h with
  | passed hruns => exact .inl ⟨rfl, fun task htask _ => .inl htask⟩
  | created hfree => exact .inl ⟨by simp [Note.call?], fun task htask _ => .inl htask⟩
  | requeued hrow hrequeueable =>
    exact .inl ⟨by simp [Note.call?], fun task htask _ => .inl htask⟩
  | claimed hrow hstatus hpatient =>
    refine .inl ⟨by simp [Note.call?], fun task htask _ => ?_⟩
    rcases List.mem_append.mp htask with hold | hnew
    · exact .inl hold
    · rw [List.mem_singleton.mp hnew]
      exact .inr rfl
  | @called first rest dates run p phase htasks hdates hphase =>
    refine .inr ⟨run, p, by simp [Note.call?], by simp [htasks], fun task htask hwaiting => ?_⟩
    rcases htraced.cases_of_mem htasks htask with rfl | hother
    · cases hphase <;> cases hwaiting
    · exact hother
  | finished htasks hrow hprocessing hends =>
    refine .inl ⟨by simp [Note.call?], fun task htask hwaiting => ?_⟩
    rcases htraced.cases_of_mem htasks htask with rfl | hother
    · cases hwaiting
    · exact .inl hother.1
  | lapsed htasks hfinishing hfree =>
    refine .inl ⟨by simp [Note.call?], fun task htask hwaiting => ?_⟩
    rcases htraced.cases_of_mem htasks htask with rfl | hother
    · cases hwaiting
    · exact .inl hother.1
  | faulted htasks hfinishing hpast =>
    refine .inl ⟨rfl, fun task htask hwaiting => ?_⟩
    rcases htraced.cases_of_mem htasks htask with rfl | hother
    · cases hwaiting
      cases hpast
    · exact .inl hother.1

/-- A turn keeps the calls at their tasks. -/
theorem Turn.counted (h : Turn id move v v') (htraced : v.Traced) (hv : v.Counted) :
    v'.Counted := by
  have hsub : ∀ claim ∈ v.tasks.map Task.claim, claim ∈ v'.tasks.map Task.claim := by
    intro claim hclaim
    rcases h.claims with ⟨-, htasks, -⟩ | ⟨p, -, htasks, -⟩
    · exact htasks ▸ hclaim
    · exact htasks ▸ List.mem_append_left _ hclaim
  rcases h.calls htraced with ⟨hcalls, hwaits⟩ | ⟨run, p, hcalls, hcalled, hwaits⟩
  · refine ⟨?_, ?_⟩
    · rw [hcalls]
      exact fun call hcall => hsub call (hv.claimed call hcall)
    · rw [hcalls]
      intro task htask hwaiting call hcall
      rcases hwaits task htask hwaiting with hold | hnew
      · exact hv.waiting task hold hwaiting call hcall
      · rw [hnew]
        exact Nat.ne_of_lt (htraced.below call (hv.claimed call hcall))
  · refine ⟨?_, ?_⟩
    · rw [hcalls]
      intro call hcall
      rcases List.mem_append.mp hcall with hold | hnew
      · exact hsub call (hv.claimed call hold)
      · rw [List.mem_singleton.mp hnew]
        exact hsub _ (List.mem_map_of_mem hcalled)
    · rw [hcalls]
      intro task htask hwaiting call hcall
      obtain ⟨hold, hne⟩ := hwaits task htask hwaiting
      rcases List.mem_append.mp hcall with hbefore | hnew
      · exact hv.waiting task hold hwaiting call hbefore
      · rw [List.mem_singleton.mp hnew]
        exact Ne.symm hne

/-- While no run holds the plan, every run is done with it. -/
theorem View.Exclusive.isOver (hv : v.Exclusive) (hheld : v.Held) (hfree : ¬ v.Processing)
    {task : Task} (htask : task ∈ v.tasks) : task.phase.isOver = true := by
  cases hover : task.phase.isOver with
  | true => rfl
  | false =>
    obtain ⟨hholder, -⟩ := hv task htask hover
    refine absurd (hheld.mpr ?_) hfree
    rw [hholder]
    rfl

/-- Every run but one that is not done with the plan is done with it. -/
theorem View.Exclusive.isOver_of_ne (hv : v.Exclusive) {task other : Task} (htask : task ∈ v.tasks)
    (hactive : task.phase.isOver = false) (hother : other ∈ v.tasks) (hne : other.run ≠ task.run) :
    other.phase.isOver = true := by
  cases hover : other.phase.isOver with
  | true => rfl
  | false =>
    obtain ⟨hholder, -⟩ := hv task htask hactive
    obtain ⟨hholder', -⟩ := hv other hother hover
    exact absurd (Option.some.inj (hholder'.symm.trans hholder)) hne

/-- A turn keeps the plan with the one run that is not done with it, unless it takes it over. -/
theorem Turn.exclusive (h : Turn id move v v') (hfresh : v.Fresh) (hheld : v.Held)
    (htraced : v.Traced) (huntaken : v'.Untaken) (hv : v.Exclusive) : v'.Exclusive := by
  intro task htask hactive
  cases h with
  | passed hruns => exact hv task htask hactive
  | created hfree =>
    have hnone := (hfresh hfree).2
    simp [hnone] at htask
  | requeued hrow hrequeueable =>
    have hfree := View.not_processing hrow (Store.ne_processing_of_isRequeueable hrequeueable)
    have hover := hv.isOver hheld hfree htask
    simp [hover] at hactive
  | @claimed r time hrow hstatus hpatient =>
    -- The claim took nothing over, so the row was scheduled and no earlier run was at work.
    have hnot : r.status ≠ .processing := by
      have hlast := huntaken _ (List.mem_append_right _ List.mem_cons_self)
      simpa [Note.takesOver] using hlast
    have hfree := View.not_processing hrow hnot
    rcases List.mem_append.mp htask with hold | hnew
    · have hover := hv.isOver hheld hfree hold
      simp [hover] at hactive
    · rw [List.mem_singleton.mp hnew]
      exact ⟨by rw [holderOf_append]; rfl, _, rfl, rfl⟩
  | @called first rest dates run p phase htasks hdates hphase =>
    rw [holderOf_append]
    rcases htraced.cases_of_mem htasks htask with rfl | ⟨hold, -⟩
    · exact hv ⟨run, p, .waiting⟩ (mem_tasks htasks) rfl
    · exact hv task hold hactive
  | finished htasks hrow hprocessing hends =>
    rcases htraced.cases_of_mem htasks htask with rfl | ⟨hold, hne⟩
    · cases hactive
    · have hover := hv.isOver_of_ne (mem_tasks htasks) hends.not_isOver hold hne
      simp [hover] at hactive
  | lapsed htasks hfinishing hfree =>
    have hnot : ¬ v.Processing := fun ⟨r, hr, hprocessing⟩ => hfree r hr hprocessing
    have hover := hv.isOver hheld hnot (mem_tasks htasks)
    simp [Phase.not_isOver_of_isFinishing hfinishing] at hover
  | @faulted first rest faulty phase htasks hfinishing hpast =>
    rcases htraced.cases_of_mem htasks htask with rfl | ⟨hold, -⟩
    · exact hv faulty (mem_tasks htasks) (Phase.not_isOver_of_isFinishing hfinishing)
    · exact hv task hold hactive

/-- A turn adds at most one note. A note of a new plan is added only where there is none, and one of
a takeover by no patient move. -/
theorem Turn.notes (h : Turn id move v v') :
    v'.notes = v.notes ∨ ∃ note, v'.notes = v.notes ++ [note] ∧
      (note.isCreation = true → v.row = none) ∧ (move.Patient → note.takesOver = false) := by
  cases h with
  | passed hruns => exact .inl rfl
  | created hfree => exact .inr ⟨_, rfl, fun _ => hfree, fun _ => rfl⟩
  | requeued hrow hrequeueable =>
    exact .inr ⟨_, rfl, fun h => absurd h Bool.false_ne_true, fun _ => rfl⟩
  | claimed hrow hstatus hpatient =>
    refine .inr ⟨_, rfl, fun h => absurd h Bool.false_ne_true, fun h => decide_eq_false ?_⟩
    rw [hpatient h]
    decide
  | called htasks hdates hphase =>
    exact .inr ⟨_, rfl, fun h => absurd h Bool.false_ne_true, fun _ => rfl⟩
  | finished htasks hrow hprocessing hends =>
    exact .inr ⟨_, rfl, fun h => absurd h Bool.false_ne_true, fun _ => rfl⟩
  | lapsed htasks hfinishing hfree =>
    exact .inr ⟨_, rfl, fun h => absurd h Bool.false_ne_true, fun _ => rfl⟩
  | faulted htasks hfinishing hpast => exact .inl rfl

/-- A turn takes no note back. -/
theorem Turn.untaken (h : Turn id move v v') (hv : v'.Untaken) : v.Untaken := by
  intro note hnote
  rcases h.notes with hsame | ⟨new, hnotes, -, -⟩
  · exact hv note (hsame ▸ hnote)
  · exact hv note (hnotes ▸ List.mem_append_left _ hnote)

/-- What a turn keeps of every plan. -/
structure View.Sound (v : View) : Prop where
  fresh : v.Fresh
  held : v.Held
  traced : v.Traced
  counted : v.Counted
  exclusive : v.Untaken → v.Exclusive

/-- Every turn keeps it. -/
theorem Turn.sound (h : Turn id move v v') (hv : v.Sound) : v'.Sound :=
  { fresh := h.fresh hv.fresh
    held := h.held hv.fresh hv.held
    traced := h.traced hv.traced
    counted := h.counted hv.traced hv.counted
    exclusive := fun huntaken =>
      h.exclusive hv.fresh hv.held hv.traced huntaken (hv.exclusive (h.untaken huntaken)) }

end

/-- The view of a plan before anything happened. -/
theorem sound_start (id : Text) : (World.start.view id).Sound :=
  { fresh := fun _ => ⟨rfl, rfl⟩
    held := ⟨fun ⟨_, hrow, _⟩ => (nomatch hrow), fun h => (nomatch h)⟩
    traced := ⟨rfl, List.Pairwise.nil, fun _ h => (nomatch h)⟩
    counted := ⟨fun _ h => (nomatch h), fun _ h => (nomatch h)⟩
    exclusive := fun _ _ h => (nomatch h) }

/-- After any moves ids are distinct. -/
theorem keyed_after (moves : List Move) : (World.after moves).journal.store.Keyed :=
  World.after_of_step (P := fun w => w.journal.store.Keyed) Store.keyed_empty
    fun _ move _ hw => keyed_step hw move

/-- After any moves the view of every plan is sound. -/
theorem sound_after (moves : List Move) (id : Text) : ((World.after moves).view id).Sound := by
  have hall : (World.after moves).journal.store.Keyed ∧ ((World.after moves).view id).Sound :=
    World.after_of_step (P := fun w => w.journal.store.Keyed ∧ (w.view id).Sound)
      ⟨Store.keyed_empty, sound_start id⟩
      fun _ move _ hw => ⟨keyed_step hw.1 move, (turn_step hw.1 move id).sound hw.2⟩
  exact hall.2

end Dispatch

end Showrunner
