import Showrunner.Proofs.Dispatch.World

/-!
# One plan among overlapping runs

Moves touch many plans, and what is proved is about one. The view of a plan is its row, the notes
about it, and the tasks that are about it. A move leaves this view alone or makes one of seven
turns: the plan is created, put back on the schedule, claimed, rendered or finished; or it is to be
finished while no run holds it, which changes nothing; or the store fails.

Invariants of a plan are proved by cases on the turns and open no move.
-/

namespace Showrunner

namespace Dispatch

open Store (PlanRow instantOf?)

/-- The notes about a plan. -/
def notesOf (id : Text) (notes : List Note) : List Note := notes.filter (·.id = id)

/-- What the world shows of one plan, and how many runs there were. -/
structure View where
  row : Option PlanRow
  notes : List Note
  tasks : List Task
  runs : Nat

/-- The view of a plan. -/
def World.view (w : World) (id : Text) : View :=
  { row := w.journal.store.row? id
    notes := notesOf id w.journal.notes
    tasks := w.tasks.filter (·.plan.id = id)
    runs := w.runs }

/-- The run is about to complete the plan or to record its failure. -/
def Phase.isFinishing : Phase → Bool
  | .completing _ => true
  | .failing _ => true
  | _ => false

/-- The run will not complete the plan any more. -/
def Phase.isPast : Phase → Bool
  | .searching => true
  | .failing _ => true
  | .done _ => true
  | _ => false

/-- How a phase that finishes a plan changes its row. -/
inductive Phase.Ends : Phase → PlanRow → PlanRow → Prop
  | completed {next : Option Stamp} {next' : Option Wall} {r : PlanRow} (now : Wall)
      (hnext : instantOf? next = .ok next') : (completing next).Ends r (r.complete next' now)
  | failed {fault : Fault} {r : PlanRow} (message : Text) (now : Wall) :
      (failing fault).Ends r (r.fail message now)

/-- Ending a plan leaves its id alone. -/
theorem Phase.Ends.id_eq {phase : Phase} {r r' : PlanRow} (h : phase.Ends r r') : r'.id = r.id := by
  cases h <;> rfl

/-- The phases that may follow when a plan is called for, by a reading of dates. -/
inductive Phase.Called (dates : Recurrence.Dates) (p : Plan) : Phase → Prop
  | searching (hnext : nextStart dates p = none) : Called dates p .searching
  | completing {next : Option Stamp} (hnext : nextStart dates p = some (.ok next)) :
      Called dates p (.completing next)
  | failing (fault : Fault) : Called dates p (.failing fault)

/-- What taking a phase does to the journal, by a reading of dates. -/
inductive Phase.Takes (dates : Recurrence.Dates) (run : Nat) (p : Plan) (j : Journal) :
    Phase → Journal → Phase → Prop
  | called {phase : Phase} (hphase : phase.Called dates p) :
      Takes dates run p j .waiting ⟨j.store, j.notes ++ [.called run p]⟩ phase
  | finished {phase : Phase} {s : Store} {took : Bool} {texts : List Text} {f : PlanRow → PlanRow}
      {result : Plan.Result} (hfinishing : phase.isFinishing = true)
      (hends : ∀ r, phase.Ends r (f r))
      (hfinish : j.store.finish p.id texts f = .ok (s, took)) :
      Takes dates run p j phase ⟨s, j.notes ++ [.finished run p.id took]⟩ (.done result)
  | faulted {phase phase' : Phase} (hfinishing : phase.isFinishing = true)
      (hpast : phase'.isPast = true) : Takes dates run p j phase j phase'
  | rested {phase : Phase} : Takes dates run p j phase j phase

/-- What a move does to the view of a plan; a patient one takes over nothing. -/
inductive Turn (id : Text) (move : Move) : View → View → Prop
  | passed {v : View} {runs : Nat} (hruns : v.runs ≤ runs) :
      Turn id move v { v with runs := runs }
  | created {v : View} {draft : Plan.Draft} {startsAt createdAt : Wall} (hrow : v.row = none) :
      Turn id move v
        { v with
          row := some (.new id draft startsAt createdAt)
          notes := v.notes ++ [.created (PlanRow.new id draft startsAt createdAt).toPlan] }
  | requeued {v : View} {r : PlanRow} {start : Option Wall} (hrow : v.row = some r)
      (hrequeueable : r.status.isRequeueable = true) :
      Turn id move v
        { v with
          row := some (r.requeue start)
          notes := v.notes ++ [.requeued (r.requeue start).toPlan start.isSome] }
  | claimed {v : View} {r : PlanRow} {time : Wall} (hrow : v.row = some r)
      (hstatus : r.status = .scheduled ∨ r.status = .processing)
      (hpatient : move.Patient → r.status = .scheduled) :
      Turn id move v
        { row := some (r.claim time)
          notes := v.notes ++ [.claimed v.runs (r.claim time).toPlan (r.status = .processing)]
          tasks := v.tasks ++ [⟨v.runs, (r.claim time).toPlan, .waiting⟩]
          runs := v.runs + 1 }
  | called {v : View} {first rest : List Task} {dates : Recurrence.Dates} {run : Nat} {p : Plan}
      {phase : Phase} (htasks : v.tasks = first ++ ⟨run, p, .waiting⟩ :: rest)
      (hdates : move.dates? = some dates) (hphase : phase.Called dates p) :
      Turn id move v
        { v with
          notes := v.notes ++ [.called run p]
          tasks := first ++ ⟨run, p, phase⟩ :: rest }
  | finished {v : View} {first rest : List Task} {task : Task} {r r' : PlanRow}
      {result : Plan.Result} (htasks : v.tasks = first ++ task :: rest) (hrow : v.row = some r)
      (hprocessing : r.status = .processing) (hends : task.phase.Ends r r') :
      Turn id move v
        { v with
          row := some r'
          notes := v.notes ++ [.finished task.run id true]
          tasks := first ++ { task with phase := .done result } :: rest }
  | lapsed {v : View} {first rest : List Task} {task : Task} {result : Plan.Result}
      (htasks : v.tasks = first ++ task :: rest) (hfinishing : task.phase.isFinishing = true)
      (hfree : ∀ r, v.row = some r → r.status ≠ .processing) :
      Turn id move v
        { v with
          notes := v.notes ++ [.finished task.run id false]
          tasks := first ++ { task with phase := .done result } :: rest }
  | faulted {v : View} {first rest : List Task} {task : Task} {phase : Phase}
      (htasks : v.tasks = first ++ task :: rest) (hfinishing : task.phase.isFinishing = true)
      (hphase : phase.isPast = true) :
      Turn id move v { v with tasks := first ++ { task with phase := phase } :: rest }

/-- Nothing that shows in the view is no turn. -/
theorem Turn.still {id : Text} {move : Move} {v : View} : Turn id move v v :=
  .passed (Nat.le_refl v.runs)

/-- A note about the plan is added to the notes about it. -/
theorem notesOf_append_self {id : Text} {note : Note} (h : note.id = id) (notes : List Note) :
    notesOf id (notes ++ [note]) = notesOf id notes ++ [note] := by
  simp [notesOf, h]

/-- A note about another plan adds nothing. -/
theorem notesOf_append_other {id : Text} {note : Note} (h : note.id ≠ id) (notes : List Note) :
    notesOf id (notes ++ [note]) = notesOf id notes := by
  simp [notesOf, h]

/-- Replacing a value that is kept replaces it among those that are kept. -/
theorem filter_set_kept {α : Type} {k : α → Bool} {l : List α} {i : Nat} {a b : α}
    (h : l[i]? = some a) (ha : k a = true) (hb : k b = true) :
    ∃ first rest, l.filter k = first ++ a :: rest ∧
      (l.set i b).filter k = first ++ b :: rest := by
  obtain ⟨hi, rfl⟩ := List.getElem?_eq_some_iff.mp h
  have hl : l = l.take i ++ l[i] :: l.drop (i + 1) := by
    rw [← List.drop_eq_getElem_cons hi, List.take_append_drop]
  refine ⟨(l.take i).filter k, (l.drop (i + 1)).filter k, ?_, ?_⟩
  · conv_lhs => rw [hl]
    rw [List.filter_append, List.filter_cons_of_pos ha]
  · rw [List.set_eq_take_append_cons_drop, if_pos hi, List.filter_append,
      List.filter_cons_of_pos hb]

/-- Replacing a value that is left out changes nothing among those that are kept. -/
theorem filter_set_dropped {α : Type} {k : α → Bool} {l : List α} {i : Nat} {a b : α}
    (h : l[i]? = some a) (ha : k a = false) (hb : k b = false) :
    (l.set i b).filter k = l.filter k := by
  obtain ⟨hi, rfl⟩ := List.getElem?_eq_some_iff.mp h
  have hl : l = l.take i ++ l[i] :: l.drop (i + 1) := by
    rw [← List.drop_eq_getElem_cons hi, List.take_append_drop]
  conv_rhs => rw [hl]
  rw [List.set_eq_take_append_cons_drop, if_pos hi, List.filter_append, List.filter_append,
    List.filter_cons_of_neg (by simp [hb]), List.filter_cons_of_neg (by simp [ha])]

/-- A note about the plan shows in its view. -/
theorem view_note_self {id : Text} {note : Note} (h : note.id = id) (s : Store) (notes : List Note)
    (tasks : List Task) (runs : Nat) :
    World.view ⟨⟨s, notes ++ [note]⟩, tasks, runs⟩ id =
      ⟨s.row? id, notesOf id notes ++ [note], tasks.filter (·.plan.id = id), runs⟩ := by
  simp only [World.view, notesOf_append_self h]

/-- A note about another plan does not. -/
theorem view_note_other {id : Text} {note : Note} (h : note.id ≠ id) (s : Store) (notes : List Note)
    (tasks : List Task) (runs : Nat) :
    World.view ⟨⟨s, notes ++ [note]⟩, tasks, runs⟩ id =
      ⟨s.row? id, notesOf id notes, tasks.filter (·.plan.id = id), runs⟩ := by
  simp only [World.view, notesOf_append_other h]

/-- Creating a plan makes a turn. -/
theorem turn_create (w : World) (id other : Text) (draft : Plan.Draft) (now : Stamp) :
    Turn id (.create other draft now) (w.view id) ((w.step (.create other draft now)).view id) := by
  simp only [World.step]
  split
  · next s p hcreate =>
    obtain ⟨hfree, startsAt, createdAt, -, -, rfl, hrow⟩ := Store.row?_createPlan hcreate
    by_cases hid : id = other
    · subst hid
      have hself : (Note.created (PlanRow.new id draft startsAt createdAt).toPlan).id = id := rfl
      rw [view_note_self hself, hrow, if_pos rfl]
      exact .created hfree
    · have hother : (Note.created (PlanRow.new other draft startsAt createdAt).toPlan).id ≠ id :=
        Ne.symm hid
      rw [view_note_other hother, hrow, if_neg hid]
      exact .still
  · exact .still

/-- Reading an instant that may be missing keeps whether it is. -/
theorem isSome_of_instantOf? {s : Option Stamp} {w : Option Wall} (h : instantOf? s = .ok w) :
    w.isSome = s.isSome := by
  cases s with
  | none =>
    cases h
    rfl
  | some s =>
    obtain ⟨wall, -, hw⟩ := bind_eq_ok.mp h
    cases hw
    rfl

/-- Putting a plan back on the schedule makes a turn. -/
theorem turn_requeue {w : World} (hw : w.journal.store.Keyed) (id other : Text)
    (startsAt : Option Stamp) :
    Turn id (.requeue other startsAt) (w.view id) ((w.step (.requeue other startsAt)).view id) := by
  simp only [World.step]
  split
  · next s p hrequeue =>
    obtain ⟨r, start, hstart, hrow, hrequeueable, hrow', rfl⟩ := Store.row?_requeuePlan hw hrequeue
    have hrid : r.id = other := (Store.row?_some hrow).2
    by_cases hid : other = id
    · subst hid
      have hself : (Note.requeued (r.requeue start).toPlan startsAt.isSome).id = other := hrid
      rw [view_note_self hself, hrow', ← isSome_of_instantOf? hstart]
      exact .requeued hrow hrequeueable
    · have hother : (Note.requeued (r.requeue start).toPlan startsAt.isSome).id ≠ id :=
        fun h => hid (hrid.symm.trans h)
      rw [view_note_other hother, Store.row?_requeuePlan_of_ne hrequeue (Ne.symm hid)]
      exact .still
  · next s hrequeue =>
    rw [Store.requeuePlan_none hrequeue]
    exact .still
  · exact .still

/-- An operation that is reached succeeds by itself. -/
theorem reach_eq_ok {α : Type} {c : Circumstances} {operation : Except Fault α} {a : α}
    (h : c.reach operation = .ok a) : operation = .ok a := by
  unfold Circumstances.reach at h
  split at h
  · cases h
  · exact h

/-- What a claim adds shows in the view of a plan as far as it is about the plan. -/
theorem view_claim (id : Text) {f : Plan → Note} {g : Plan → Task} (hf : ∀ p, (f p).id = p.id)
    (hg : ∀ p, (g p).plan = p) (s : Store) (notes : List Note) (tasks : List Task)
    (plans : List Plan) (runs : Nat) :
    World.view ⟨⟨s, notes ++ plans.map f⟩, tasks ++ plans.map g, runs⟩ id =
      ⟨s.row? id, notesOf id notes ++ (plans.filter (·.id = id)).map f,
        tasks.filter (·.plan.id = id) ++ (plans.filter (·.id = id)).map g, runs⟩ := by
  simp only [World.view, notesOf, List.filter_append, List.filter_map, Function.comp_def, hf, hg]

/-- A claim makes a turn. -/
theorem turn_claim {w : World} (hw : w.journal.store.Keyed) (id : Text) (limit : Int)
    (staleAfter : Option Int) (c : Circumstances) :
    Turn id (.claim limit staleAfter c) (w.view id) ((w.step (.claim limit staleAfter c)).view id) := by
  simp only [World.step, host]
  cases hreach : c.reach (w.journal.store.claim limit c.now staleAfter) with
  | error fault => exact .passed (v := w.view id) (Nat.le_succ w.runs)
  | ok claimed =>
    have hclaim := reach_eq_ok hreach
    simp only
    rw [view_claim id (fun p => rfl) (fun p => rfl)]
    by_cases hid : id ∈ claimed.plans.map Plan.id
    · obtain ⟨p, hp, rfl⟩ := List.mem_map.mp hid
      obtain ⟨r, time, before, -, hbefore, hrow, hdue, rfl, hrow', htaken⟩ :=
        Store.row?_claim_of_mem hw hclaim hp
      have hflag : claimed.reclaimed.contains (r.claim time).toPlan.id =
          decide (r.status = .processing) := by
        rw [List.contains_eq_mem]
        exact decide_eq_decide.mpr htaken
      rw [Store.filter_key (Store.nodup_claim hw hclaim) hp, hrow', List.map_singleton,
        List.map_singleton, hflag]
      refine .claimed hrow (Store.status_of_isDue hdue) fun hpatient => ?_
      obtain rfl : staleAfter = none := hpatient
      exact Store.isDue_of_patient hbefore hdue
    · have hnone : claimed.plans.filter (·.id = id) = [] := by
        refine List.filter_eq_nil_iff.mpr fun p hp hpid => hid ?_
        rw [← of_decide_eq_true hpid]
        exact List.mem_map_of_mem hp
      rw [hnone, Store.row?_claim_of_not_mem hw hclaim hid, List.map_nil, List.map_nil,
        List.append_nil, List.append_nil]
      exact .passed (v := w.view id) (Nat.le_succ w.runs)

/-- Every phase takes effect on the journal in one of these ways. -/
theorem takes_proceed (run : Nat) (c : Circumstances) (p : Plan) (j : Journal) (phase : Phase) :
    phase.Takes c.dates run p j (phase.proceed (host run c) p j).1 (phase.proceed (host run c) p j).2 := by
  cases phase with
  | waiting =>
    simp only [Phase.proceed, attempt, host]
    cases c.reply with
    | error fault => exact .called (.failing fault)
    | ok reply =>
      simp only
      rcases hnext : nextStart c.dates p with _ | fault | next
      · exact .called (.searching hnext)
      · exact .called (.failing fault)
      · exact .called (.completing hnext)
  | searching => exact .rested
  | completing next =>
    simp only [Phase.proceed, host]
    cases hreach : c.reach (j.store.markCompleted p.id next c.now) with
    | error fault => exact .faulted rfl rfl
    | ok done =>
      obtain ⟨s, took⟩ := done
      obtain ⟨next', now', hnext, -, hfinish⟩ := Store.markCompleted_ok (reach_eq_ok hreach)
      cases took <;> exact .finished rfl (fun r => .completed now' hnext) hfinish
  | failing fault =>
    simp only [Phase.proceed, recordFailure, host]
    cases hreach : c.reach (j.store.markFailed p.id (text "Dispatch failed: " ++ fault.shown) c.now) with
    | error outage => exact .faulted rfl rfl
    | ok done =>
      obtain ⟨s, took⟩ := done
      obtain ⟨now', -, hfinish⟩ := Store.markFailed_ok (reach_eq_ok hreach)
      exact .finished rfl (fun r => .failed _ now') hfinish
  | done result => exact .rested

/-- Taking a phase keeps ids distinct. -/
theorem Phase.Takes.keyed {dates : Recurrence.Dates} {run : Nat} {p : Plan} {j j' : Journal} {phase phase' : Phase}
    (h : phase.Takes dates run p j j' phase') (hj : j.store.Keyed) : j'.store.Keyed := by
  cases h with
  | called => exact hj
  | finished hfinishing hends hfinish => exact Store.keyed_finish hj (fun r => (hends r).id_eq) hfinish
  | faulted => exact hj
  | rested => exact hj

/-- Every move keeps ids distinct. -/
theorem keyed_step {w : World} (hw : w.journal.store.Keyed) (move : Move) :
    (w.step move).journal.store.Keyed := by
  cases move with
  | create id draft now =>
    simp only [World.step]
    split
    · next s p hcreate => exact Store.keyed_createPlan hw hcreate
    · exact hw
  | requeue id startsAt =>
    simp only [World.step]
    split
    · next s p hrequeue => exact Store.keyed_requeuePlan hw hrequeue
    · next s hrequeue => exact Store.keyed_requeuePlan hw hrequeue
    · exact hw
  | claim limit staleAfter c =>
    simp only [World.step, host]
    cases hreach : c.reach (w.journal.store.claim limit c.now staleAfter) with
    | error fault => exact hw
    | ok claimed => exact Store.keyed_claim hw (reach_eq_ok hreach)
  | proceed i c =>
    simp only [World.step]
    split
    · next task htask => exact (takes_proceed task.run c task.plan w.journal task.phase).keyed hw
    · exact hw

/-- Taking a phase of another plan leaves the view alone. -/
theorem Phase.Takes.view_other {w : World} {dates : Recurrence.Dates} {i run : Nat} {p : Plan} {before after : Phase}
    {j : Journal} (htask : w.tasks[i]? = some ⟨run, p, before⟩)
    (h : before.Takes dates run p w.journal j after) {id : Text} (hid : p.id ≠ id) :
    World.view ⟨j, w.tasks.set i ⟨run, p, after⟩, w.runs⟩ id = w.view id := by
  have htasks : (w.tasks.set i ⟨run, p, after⟩).filter (·.plan.id = id) =
      w.tasks.filter (·.plan.id = id) :=
    filter_set_dropped htask (decide_eq_false hid) (decide_eq_false hid)
  cases h with
  | called hphase =>
    have hother : (Note.called run p).id ≠ id := hid
    rw [view_note_other hother, htasks]
    rfl
  | @finished _ _ took _ _ _ hfinishing hends hfinish =>
    have hother : (Note.finished run p.id took).id ≠ id := hid
    rw [view_note_other hother, htasks,
      Store.row?_finish_of_ne (fun r => (hends r).id_eq) hfinish (Ne.symm hid)]
    rfl
  | faulted hfinishing hpast => simp only [World.view, htasks]
  | rested => simp only [World.view, htasks]

/-- Taking a phase of the plan makes a turn. -/
theorem Phase.Takes.turn {w : World} (hw : w.journal.store.Keyed) {i run : Nat} {c : Circumstances}
    {p : Plan} {before after : Phase} {j : Journal} (htask : w.tasks[i]? = some ⟨run, p, before⟩)
    (h : before.Takes c.dates run p w.journal j after) :
    Turn p.id (.proceed i c) (w.view p.id)
      (World.view ⟨j, w.tasks.set i ⟨run, p, after⟩, w.runs⟩ p.id) := by
  obtain ⟨first, rest, htasks, htasks'⟩ :=
    filter_set_kept (k := fun task : Task => task.plan.id = p.id) (b := ⟨run, p, after⟩) htask
      (decide_eq_true rfl) (decide_eq_true rfl)
  cases h with
  | called hphase =>
    have hself : (Note.called run p).id = p.id := rfl
    rw [view_note_self hself, htasks']
    exact .called htasks rfl hphase
  | @finished _ s took _ f _ hfinishing hends hfinish =>
    have hself : (Note.finished run p.id took).id = p.id := rfl
    rw [view_note_self hself, htasks']
    cases took with
    | true =>
      obtain ⟨r, hrow, hprocessing⟩ := (Store.finish_took hw hfinish).mp rfl
      rw [Store.row?_finish (fun r => (hends r).id_eq) hfinish hrow hprocessing]
      exact .finished (v := w.view p.id) htasks hrow hprocessing (hends r)
    | false =>
      rw [Store.finish_false hfinish]
      refine .lapsed (v := w.view p.id) htasks hfinishing fun r hrow hprocessing => ?_
      have htook := (Store.finish_took hw hfinish).mpr ⟨r, hrow, hprocessing⟩
      cases htook
  | faulted hfinishing hpast =>
    simp only [World.view, htasks']
    exact .faulted (v := w.view p.id) htasks hfinishing hpast
  | rested =>
    simp only [World.view, htasks', ← htasks]
    exact .still

/-- Every move makes a turn for every plan. -/
theorem turn_step {w : World} (hw : w.journal.store.Keyed) (move : Move) (id : Text) :
    Turn id move (w.view id) ((w.step move).view id) := by
  cases move with
  | create other draft now => exact turn_create w id other draft now
  | requeue other startsAt => exact turn_requeue hw id other startsAt
  | claim limit staleAfter c => exact turn_claim hw id limit staleAfter c
  | proceed i c =>
    simp only [World.step]
    split
    · next task htask =>
      have htakes := takes_proceed task.run c task.plan w.journal task.phase
      by_cases hid : task.plan.id = id
      · subst hid
        exact Phase.Takes.turn hw htask htakes
      · rw [Phase.Takes.view_other htask htakes hid]
        exact .still
    · exact .still

end Dispatch

end Showrunner
