import Showrunner.Proofs.Dispatch.Holders
import Showrunner.Proofs.Recurrence.Progress
import Showrunner.Proofs.Store.Operations

/-!
# What a plan is rendered for

While no run takes over a plan, a plan that is put on the schedule with a start of its own is
rendered for the occurrences of its rule, one after the other from that start on. None is left out
and none comes twice, however the runs overlap, until the plan is put back on the schedule. A run
that fails leaves the plan off the schedule, so it is the last one before that.

A stretch is the plan as it was put on the schedule, with the starts of the calls since. The
invariant says where the occurrence is that comes next: it is the start of the row while the plan
is scheduled, the start of the claimed plan until it is rendered, and after that the next start with
which the run is about to complete the plan.

What follows an occurrence depends on how dates are read when it is searched for, so the occurrences
are those to which the readings of the calls lead, one after the other.
-/

namespace Showrunner

namespace Dispatch

open Recurrence (Dates occurrence)
open Store (PlanRow instantOf instantOf?)

/-- A plan as it was put on the schedule with a start of its own, and the starts of its calls
since. -/
structure Stretch where
  opened : Plan
  starts : List Stamp

/-- The stretch after a note about the plan. -/
def stretchAfter (stretch : Option Stretch) : Note → Option Stretch
  | .created p => some ⟨p, []⟩
  | .requeued p anew => if anew then some ⟨p, []⟩ else none
  | .called _ p => stretch.map fun s => ⟨s.opened, s.starts ++ [p.startsAt]⟩
  | _ => stretch

/-- The stretch of a plan, by the notes about it. -/
def stretchOf (notes : List Note) : Option Stretch := notes.foldl stretchAfter none

/-- The occurrence that the next call is for, by the readings of the calls so far. -/
def Stretch.next (s : Stretch) (readings : List Dates) : Option Stamp :=
  occurrence s.opened.rrule s.opened.startsAt readings

/-- The plan that a note puts on the schedule with a start of its own. -/
def Note.opened? : Note → Option Plan
  | .created p => some p
  | .requeued p true => some p
  | _ => none

/-- The note puts a plan back on the schedule. -/
def Note.isRequeue : Note → Bool
  | .requeued _ _ => true
  | _ => false

/-- A row goes on with the rule of a stretch, and if it is scheduled then for what comes next. -/
structure Stretch.FitsRow (s : Stretch) (next : Option Stamp) (r : PlanRow) : Prop where
  rule : r.rrule = s.opened.rrule
  anchor : r.anchorAt.map Stamp.utc = s.opened.anchorAt
  scheduled : r.status = .scheduled → next.bind Stamp.toUtc? = some (Stamp.utc r.startsAt)

/-- The calls of a stretch were made for the occurrences of the rule, one reading of dates to each call, and
the row and the tasks show what comes next. -/
structure Stretch.Fits (s : Stretch) (readings : List Dates) (row : Option PlanRow) (tasks : List Task) :
    Prop where
  anchored : s.opened.anchorAt = some s.opened.startsAt
  length : readings.length = s.starts.length
  starts : ∀ k start, s.starts[k]? = some start → (s.next (readings.take k)).bind Stamp.toUtc? = some start
  row : ∀ r, row = some r → s.FitsRow (s.next readings) r
  waiting : ∀ task ∈ tasks, task.phase = .waiting →
    (s.next readings).bind Stamp.toUtc? = some task.plan.startsAt
  completing : ∀ task ∈ tasks, ∀ next, task.phase = .completing next → s.next readings = next

/-- The plan follows its rule, by some of the readings of dates that there were. -/
def View.Following (v : View) (all : List Dates) : Prop :=
  ∀ s, stretchOf v.notes = some s → ∃ readings, readings.Sublist all ∧ s.Fits readings v.row v.tasks

/-- A plan is created once, before anything else. -/
def View.Born (v : View) : Prop := ∀ note ∈ v.notes.tail, note.isCreation = false

/-- One more note decides on the stretch. -/
theorem stretchOf_append (notes : List Note) (note : Note) :
    stretchOf (notes ++ [note]) = stretchAfter (stretchOf notes) note := by
  simp [stretchOf]

/-- The next start of a rendered plan is the occurrence after its start. -/
theorem nextStart_ok {dates : Dates} {p : Plan} {next : Option Stamp}
    (h : nextStart dates p = some (.ok next)) :
    ∃ found, Recurrence.advance dates p.startsAt p.rrule p.anchorAt = .ok found ∧ found.stamp? = next := by
  unfold nextStart at h
  split at h
  case h_1 => cases Option.some.inj h
  case h_5 => cases h
  all_goals
    next hfound =>
      cases Option.some.inj h
      exact ⟨_, hfound, rfl⟩

/-- The wall reading of an instant is that of the stamp moved to universal time. -/
theorem toUtc?_of_instantOf {s : Stamp} {w : Wall} (h : instantOf s = .ok w) :
    s.toUtc? = some (Stamp.utc w) := by
  obtain ⟨t, ht, hw⟩ := bind_eq_ok.mp h
  cases hw
  have hmoved := Stamp.toUtc_ok.mp ht
  rw [hmoved, ← (Stamp.toUtc?_some hmoved).1]

section

variable {id : Text} {move : Move} {v v' : View} {readings all : List Dates}

/-- A patient turn takes nothing over. -/
theorem Turn.untaken_of_patient (h : Turn id move v v') (hpatient : move.Patient) (hv : v.Untaken) :
    v'.Untaken := by
  unfold View.Untaken
  rcases h.notes with hsame | ⟨new, hnotes, -, hnew⟩
  · rw [hsame]
    exact hv
  · rw [hnotes]
    exact List.forall_mem_append.mpr ⟨hv, List.forall_mem_singleton.mpr (hnew hpatient)⟩

/-- A turn creates no plan that is there already. -/
theorem Turn.born (h : Turn id move v v') (hfresh : v.Fresh) (hv : v.Born) : v'.Born := by
  unfold View.Born
  rcases h.notes with hsame | ⟨new, hnotes, hcreation, -⟩
  · rw [hsame]
    exact hv
  · rw [hnotes, List.tail_append]
    split
    · exact fun note hnote => absurd hnote (List.not_mem_nil)
    · next hnonempty =>
      refine List.forall_mem_append.mpr ⟨hv, List.forall_mem_singleton.mpr ?_⟩
      rw [Bool.eq_false_iff]
      intro hcreates
      exact hnonempty (List.isEmpty_iff.mpr (hfresh (hcreation hcreates)).1)

/-- A rendered plan is completed with the occurrence after the one of the call. -/
theorem Stretch.next_of_nextStart {s : Stretch} {dates : Dates} {p : Plan} {next : Option Stamp}
    (hrule : p.rrule = s.opened.rrule) (hanchor : p.anchorAt = some s.opened.startsAt)
    (hstart : (s.next readings).bind Stamp.toUtc? = some p.startsAt)
    (hnext : nextStart dates p = some (.ok next)) : s.next (readings ++ [dates]) = next := by
  obtain ⟨found, hfound, rfl⟩ := nextStart_ok hnext
  obtain ⟨occurred, hoccurred, hmoved⟩ := Option.bind_eq_some_iff.mp hstart
  rw [hrule, hanchor, Recurrence.advance_toUtc? hmoved] at hfound
  unfold Stretch.next at hoccurred ⊢
  rw [Recurrence.occurrence_concat, hoccurred, Option.bind_some, Recurrence.following, hfound]
  rfl

/-- A run that will not complete a plan any more does not wait to render it. -/
theorem Phase.ne_waiting {phase : Phase} (h : phase.isPast = true) : phase ≠ .waiting := by
  cases phase with
  | waiting => cases h
  | completing next => cases h
  | searching | failing fault | done result => exact fun h => nomatch h

/-- A run that will not complete a plan any more is not about to. -/
theorem Phase.ne_completing {phase : Phase} (h : phase.isPast = true) (next : Option Stamp) :
    phase ≠ .completing next := by
  cases phase with
  | waiting => cases h
  | completing next => cases h
  | searching | failing fault | done result => exact fun h => nomatch h

/-- A run that is done with a plan will not complete it any more. -/
theorem Phase.isPast_of_isOver {phase : Phase} (h : phase.isOver = true) : phase.isPast = true := by
  cases phase with
  | waiting => cases h
  | completing next => cases h
  | searching | failing fault | done result => rfl

/-- A stretch begins with the plan at its anchor and every earlier task past. -/
theorem Stretch.fits_opened {r : PlanRow} {tasks : List Task} (hanchor : r.anchorAt = some r.startsAt)
    (hpast : ∀ task ∈ tasks, task.phase.isPast = true) :
    Stretch.Fits ⟨r.toPlan, []⟩ [] (some r) tasks := by
  have hanchored : r.toPlan.anchorAt = some r.toPlan.startsAt := by
    simp only [PlanRow.toPlan, hanchor, Option.map_some]
  have hnext : Stretch.next ⟨r.toPlan, []⟩ [] = some (Stamp.utc r.startsAt) := rfl
  refine ⟨hanchored, rfl, fun k start hk => ?_, ?_, ?_, ?_⟩
  · simp at hk
  · rintro r' hr'
    cases hr'
    refine ⟨rfl, rfl, fun _ => ?_⟩
    rw [hnext, Option.bind_some, Stamp.toUtc?_utc]
  · intro task htask hwaiting
    exact absurd hwaiting (Phase.ne_waiting (hpast task htask))
  · intro task htask next hcompleting
    exact absurd hcompleting (Phase.ne_completing (hpast task htask) next)

/-- A stretch fits a row that goes on with its rule, and tasks that were there or are past. -/
theorem Stretch.Fits.change {s : Stretch} {row row' : Option PlanRow} {tasks tasks' : List Task}
    (hfits : s.Fits readings row tasks) (hrow : ∀ r, row' = some r → s.FitsRow (s.next readings) r)
    (htasks : ∀ task ∈ tasks', task ∈ tasks ∨ task.phase.isPast = true) :
    s.Fits readings row' tasks' := by
  refine ⟨hfits.anchored, hfits.length, hfits.starts, hrow, ?_, ?_⟩
  · intro task htask hwaiting
    rcases htasks task htask with hold | hpast
    · exact hfits.waiting task hold hwaiting
    · exact absurd hwaiting (Phase.ne_waiting hpast)
  · intro task htask next hcompleting
    rcases htasks task htask with hold | hpast
    · exact hfits.completing task hold next hcompleting
    · exact absurd hcompleting (Phase.ne_completing hpast next)

/-- A run that claims a scheduled plan waits to render it for what comes next. -/
theorem Stretch.Fits.claim {s : Stretch} {r : PlanRow} {tasks : List Task}
    (hfits : s.Fits readings (some r) tasks) (hscheduled : r.status = .scheduled) (run : Nat) (time : Wall) :
    s.Fits readings (some (r.claim time)) (tasks ++ [⟨run, (r.claim time).toPlan, .waiting⟩]) := by
  have hrow := hfits.row r rfl
  refine ⟨hfits.anchored, hfits.length, hfits.starts, ?_, ?_, ?_⟩
  · rintro r' hr'
    cases hr'
    exact ⟨hrow.rule, hrow.anchor, fun h => by cases h⟩
  · intro task htask hwaiting
    rcases List.mem_append.mp htask with hold | hnew
    · exact hfits.waiting task hold hwaiting
    · rw [List.mem_singleton.mp hnew]
      exact hrow.scheduled hscheduled
  · intro task htask next hcompleting
    rcases List.mem_append.mp htask with hold | hnew
    · exact hfits.completing task hold next hcompleting
    · rw [List.mem_singleton.mp hnew] at hcompleting
      cases hcompleting

/-- A run that renders the plan of the row does so for what came next, and is about to complete it
with the occurrence after that. -/
theorem Stretch.Fits.call {s : Stretch} {r : PlanRow} {tasks tasks' : List Task} {dates : Dates}
    {run : Nat} {phase : Phase} (hfits : s.Fits readings (some r) tasks)
    (hmem : ⟨run, r.toPlan, .waiting⟩ ∈ tasks) (hprocessing : r.status = .processing)
    (hphase : phase.Called dates r.toPlan)
    (hothers : ∀ task ∈ tasks', task = ⟨run, r.toPlan, phase⟩ ∨ task.phase.isPast = true) :
    Stretch.Fits ⟨s.opened, s.starts ++ [r.toPlan.startsAt]⟩ (readings ++ [dates]) (some r) tasks' := by
  have hrow := hfits.row r rfl
  have hstart := hfits.waiting _ hmem rfl
  have hlength := hfits.length
  refine ⟨hfits.anchored, by rw [List.length_append, List.length_append, hlength]; rfl, ?_, ?_, ?_, ?_⟩
  · intro k start hk
    rw [List.getElem?_append] at hk
    split at hk
    · next hlt =>
      rw [List.take_append_of_le_length (by omega)]
      exact hfits.starts k start hk
    · obtain ⟨hlast, heq⟩ := List.getElem?_eq_some_iff.mp hk
      rw [List.length_singleton] at hlast
      obtain rfl : k = readings.length := by omega
      obtain rfl : r.toPlan.startsAt = start := by simpa using heq
      rw [List.take_left]
      exact hstart
  · rintro r' hr'
    cases hr'
    exact ⟨hrow.rule, hrow.anchor, fun h => by cases hprocessing.symm.trans h⟩
  · intro task htask hwaiting
    rcases hothers task htask with rfl | hpast
    · cases hphase <;> cases hwaiting
    · exact absurd hwaiting (Phase.ne_waiting hpast)
  · intro task htask next hcompleting
    rcases hothers task htask with rfl | hpast
    · cases hphase with
      | searching | failing fault => cases hcompleting
      | completing hnext =>
        cases hcompleting
        exact Stretch.next_of_nextStart (s := s) hrow.rule (hrow.anchor.trans hfits.anchored) hstart hnext
    · exact absurd hcompleting (Phase.ne_completing hpast next)

/-- A row that a run has completed or failed goes on with the rule. -/
theorem Stretch.Fits.row_of_ends {s : Stretch} {tasks : List Task} {task : Task} {r r' : PlanRow}
    (hfits : s.Fits readings (some r) tasks) (htask : task ∈ tasks) (hends : task.phase.Ends r r') :
    s.FitsRow (s.next readings) r' := by
  obtain ⟨hrule, hanchor, -⟩ := hfits.row r rfl
  obtain ⟨run, p, phase⟩ := task
  cases hends with
  | @completed next next' _ now hnext =>
    refine ⟨hrule, hanchor, fun hscheduled => ?_⟩
    rw [hfits.completing _ htask next rfl]
    cases next with
    | none =>
      cases hnext
      cases hscheduled
    | some start =>
      obtain ⟨wall, hwall, heq⟩ := bind_eq_ok.mp hnext
      cases heq
      exact toUtc?_of_instantOf hwall
  | failed message now => exact ⟨hrule, hanchor, fun h => by cases h⟩

/-- The tasks after a phase was taken are past if they were not there. -/
theorem View.Traced.mem_or_isPast (hv : v.Traced) {first rest : List Task} {task : Task}
    {phase : Phase} (htasks : v.tasks = first ++ task :: rest) (hpast : phase.isPast = true) :
    ∀ other ∈ first ++ { task with phase := phase } :: rest,
      other ∈ v.tasks ∨ other.phase.isPast = true := by
  intro other hother
  rcases hv.cases_of_mem htasks hother with rfl | ⟨hold, -⟩
  · exact .inr hpast
  · exact .inl hold

/-- A patient turn keeps the plan at its rule. -/
theorem Turn.following (h : Turn id move v v') (hpatient : move.Patient) (hsound : v.Sound)
    (huntaken : v.Untaken) (hv : v.Following all) : v'.Following (all ++ move.dates?.toList) := by
  have hexclusive := hsound.exclusive huntaken
  have hmore : ∀ {readings : List Dates}, readings.Sublist all →
      readings.Sublist (all ++ move.dates?.toList) := fun hsub => hsub.trans (List.sublist_append_left _ _)
  intro s hs
  cases h with
  | passed hruns => exact (hv s hs).imp fun _ => And.imp_left hmore
  | created hfree =>
    rw [stretchOf_append] at hs
    cases hs
    refine ⟨[], List.nil_sublist _, Stretch.fits_opened rfl fun task htask => ?_⟩
    rw [(hsound.fresh hfree).2] at htask
    cases htask
  | @requeued r start hrow hrequeueable =>
    rw [stretchOf_append] at hs
    cases start with
    | none => cases hs
    | some start =>
      cases hs
      refine ⟨[], List.nil_sublist _, Stretch.fits_opened rfl fun task htask => ?_⟩
      have hfree := View.not_processing hrow (Store.ne_processing_of_isRequeueable hrequeueable)
      exact Phase.isPast_of_isOver (hexclusive.isOver hsound.held hfree htask)
  | claimed hrow hstatus hscheduled =>
    rw [stretchOf_append] at hs
    obtain ⟨readings, hsub, hfits⟩ := hv s hs
    rw [hrow] at hfits
    exact ⟨readings, hmore hsub, hfits.claim (hscheduled hpatient) _ _⟩
  | @called first rest dates run p phase htasks hdates hphase =>
    rw [stretchOf_append] at hs
    obtain ⟨old, hold, rfl⟩ := Option.map_eq_some_iff.mp hs
    have hmem := mem_tasks htasks
    obtain ⟨hholder, r, hrow, hplan⟩ := hexclusive _ hmem rfl
    obtain rfl : p = r.toPlan := hplan
    have hprocessing : r.status = .processing := by
      obtain ⟨r', hr', hprocessing⟩ := hsound.held.mpr (by rw [hholder]; rfl)
      cases hrow.symm.trans hr'
      exact hprocessing
    obtain ⟨readings, hsub, hfits⟩ := hv old hold
    rw [hdates, Option.toList_some]
    refine ⟨readings ++ [dates], hsub.append (List.Sublist.refl _), ?_⟩
    rw [hrow] at hfits ⊢
    refine hfits.call hmem hprocessing hphase fun task htask => ?_
    -- The run that renders the plan holds it, so every other run is done with it.
    rcases hsound.traced.cases_of_mem htasks htask with heq | ⟨hother, hne⟩
    · exact .inl heq
    · exact .inr (Phase.isPast_of_isOver (hexclusive.isOver_of_ne hmem rfl hother hne))
  | finished htasks hrow hprocessing hends =>
    rw [stretchOf_append] at hs
    obtain ⟨readings, hsub, hfits⟩ := hv s hs
    refine ⟨readings, hmore hsub, hfits.change ?_ (hsound.traced.mem_or_isPast htasks rfl)⟩
    rintro r hr
    cases hr
    rw [hrow] at hfits
    exact hfits.row_of_ends (mem_tasks htasks) hends
  | lapsed htasks hfinishing hfree =>
    rw [stretchOf_append] at hs
    obtain ⟨readings, hsub, hfits⟩ := hv s hs
    exact ⟨readings, hmore hsub, hfits.change hfits.row (hsound.traced.mem_or_isPast htasks rfl)⟩
  | faulted htasks hfinishing hpast =>
    obtain ⟨readings, hsub, hfits⟩ := hv s hs
    exact ⟨readings, hmore hsub, hfits.change hfits.row (hsound.traced.mem_or_isPast htasks hpast)⟩

end

/-- After patient moves nothing was taken over, and every plan follows its rule by readings of the moves. -/
theorem following_after {moves : List Move} (hpatient : ∀ move ∈ moves, move.Patient) (id : Text) :
    ((World.after moves).view id).Born ∧
      ((World.after moves).view id).Following (moves.filterMap Move.dates?) := by
  have hall : ((World.after moves).view id).Untaken ∧ ((World.after moves).view id).Born ∧
      ((World.after moves).view id).Following (moves.filterMap Move.dates?) := by
    induction moves using List.reverseRecOn with
    | nil => exact ⟨fun _ h => (nomatch h), fun _ h => (nomatch h), fun _ h => (nomatch h)⟩
    | append_singleton moves move ih =>
      obtain ⟨huntaken, hborn, hfollowing⟩ := ih fun m hm => hpatient m (List.mem_append_left _ hm)
      have hlast := hpatient move (List.mem_append_right _ List.mem_cons_self)
      have hsound := sound_after moves id
      have hturn := turn_step (keyed_after moves) move id
      have hafter : World.after (moves ++ [move]) = (World.after moves).step move :=
        List.foldl_append ..
      have hreading : [move].filterMap Move.dates? = move.dates?.toList := by cases move <;> rfl
      rw [hafter, List.filterMap_append, hreading]
      exact ⟨hturn.untaken_of_patient hlast huntaken, hturn.born hsound.fresh hborn,
        hturn.following hlast hsound huntaken hfollowing⟩
  exact hall.2

/-- Until the plan is put back on the schedule, a stretch grows by the calls. -/
theorem foldl_stretchAfter {notes : List Note} (hcreation : ∀ note ∈ notes, note.isCreation = false)
    (hrequeue : ∀ note ∈ notes, note.isRequeue = false) (q : Plan) (starts : List Stamp) :
    notes.foldl stretchAfter (some ⟨q, starts⟩) =
      some ⟨q, starts ++ (notes.filterMap Note.call?).map fun call => call.2.startsAt⟩ := by
  induction notes generalizing starts with
  | nil => simp
  | cons note rest ih =>
    obtain ⟨hcreate, hcreates⟩ := List.forall_mem_cons.mp hcreation
    obtain ⟨hback, hbacks⟩ := List.forall_mem_cons.mp hrequeue
    rw [List.foldl_cons]
    cases note with
    | created p => cases hcreate
    | requeued p anew => cases hback
    | claimed run p taken => exact ih hcreates hbacks starts
    | called run p =>
      refine (ih hcreates hbacks (starts ++ [p.startsAt])).trans ?_
      simp [Note.call?]
    | finished run id took => exact ih hcreates hbacks starts

/-- With the stale policy off, whatever the runs and the interleaving: from the note that puts a
plan on the schedule with a start of its own until it is put back on the schedule, the starts with
which it is rendered are the occurrences of its rule in their order, beginning with that start,
which is also the anchor, and each found by how dates were read at the call before. They lie one after
the other in time. -/
theorem calls_are_occurrences {moves : List Move} (hpatient : ∀ move ∈ moves, move.Patient)
    {id : Text} {before after : List Note} {opening : Note} {q : Plan}
    (hnotes : notesOf id (World.after moves).journal.notes = before ++ opening :: after)
    (hopening : opening.opened? = some q) (hrequeue : ∀ note ∈ after, note.isRequeue = false) :
    let starts := (after.filterMap Note.call?).map fun call => call.2.startsAt
    q.anchorAt = some q.startsAt ∧
    (∃ readings : List Dates, readings.Sublist (moves.filterMap Move.dates?) ∧
      readings.length = starts.length ∧ ∀ k start, starts[k]? = some start →
        (occurrence q.rrule q.startsAt (readings.take k)).bind Stamp.toUtc? = some start) ∧
    starts.Pairwise fun s t => s.instant < t.instant := by
  intro starts
  obtain ⟨hborn, hfollowing⟩ := following_after hpatient id
  have hcreation : ∀ note ∈ after, note.isCreation = false := by
    intro note hnote
    refine hborn note ?_
    have htail : after ⊆ (before ++ opening :: after).tail := by
      cases before with
      | nil => exact fun _ h => h
      | cons first rest => exact fun _ h => List.mem_append_right _ (List.mem_cons_of_mem _ h)
    exact (congrArg List.tail hnotes) ▸ htail hnote
  have hstretch : stretchOf (notesOf id (World.after moves).journal.notes) = some ⟨q, starts⟩ := by
    have hopened : stretchAfter (before.foldl stretchAfter none) opening = some ⟨q, []⟩ := by
      cases opening with
      | created p =>
        cases hopening
        rfl
      | requeued p anew =>
        cases anew with
        | true =>
          cases hopening
          rfl
        | false => cases hopening
      | claimed run p taken => cases hopening
      | called run p => cases hopening
      | finished run id took => cases hopening
    rw [hnotes, stretchOf, List.foldl_append, List.foldl_cons, hopened,
      foldl_stretchAfter hcreation hrequeue, List.nil_append]
  obtain ⟨readings, hsub, hfits⟩ := hfollowing _ hstretch
  refine ⟨hfits.anchored, ⟨readings, hsub, hfits.length, hfits.starts⟩, List.pairwise_iff_getElem.mpr ?_⟩
  intro m n hm hn hlt
  obtain ⟨s, hs, hsm⟩ := Option.bind_eq_some_iff.mp
    (hfits.starts m starts[m] (List.getElem?_eq_getElem hm))
  obtain ⟨t, ht, htm⟩ := Option.bind_eq_some_iff.mp
    (hfits.starts n starts[n] (List.getElem?_eq_getElem hn))
  rw [Stamp.instant_toUtc? hsm, Stamp.instant_toUtc? htm]
  exact Recurrence.occurrence_strictMono hlt (hfits.length ▸ Nat.le_of_lt hn) hs ht

/-- A plan that recurs daily is claimed and rendered on two days. -/
def daily : List Move :=
  [.create (text "a") (Store.sampleDraft (.ofHours 1) (some (text "FREQ=DAILY"))) (.ofHours 0),
    .claim 20 none (smooth (.ofHours 2)),
    .proceed 0 (smooth (.ofHours 2)),
    .proceed 0 (smooth (.ofHours 2)),
    .claim 20 none (smooth (.ofHours 26)),
    .proceed 1 (smooth (.ofHours 26))]

/-- The plan is rendered for its start and for the same hour of the next day. -/
theorem daily_calls :
    let notes := notesOf (text "a") (World.after daily).journal.notes
    let starts := (notes.tail.filterMap Note.call?).map fun call => call.2.startsAt
    starts = [.ofHours 1, .ofHours 25] ∧
    (∃ readings : List Dates, readings.Sublist (daily.filterMap Move.dates?) ∧
      readings.length = starts.length ∧ ∀ k start, starts[k]? = some start →
        (occurrence (some (text "FREQ=DAILY")) (.ofHours 1) (readings.take k)).bind Stamp.toUtc? =
          some start) ∧
    starts.Pairwise fun s t => s.instant < t.instant := by
  have hpatient : ∀ move ∈ daily, move.Patient := by simp [daily, Move.Patient]
  have hnotes : notesOf (text "a") (World.after daily).journal.notes =
      [] ++ .created (PlanRow.new (text "a")
        (Store.sampleDraft (.ofHours 1) (some (text "FREQ=DAILY"))) (Stamp.ofHours 1).wall
        (Stamp.ofHours 0).wall).toPlan ::
        (notesOf (text "a") (World.after daily).journal.notes).tail := by
    decide +kernel
  have htheorem := calls_are_occurrences hpatient hnotes rfl (by decide +kernel)
  exact ⟨by decide +kernel, htheorem.2⟩

end Dispatch

end Showrunner
