import Showrunner.Proofs.Dispatch.Holders
import Showrunner.Proofs.Store.Operations

/-!
# Whose finish takes effect

Finishing a plan looks at its status and not at who claimed it. It takes effect exactly while the
plan is held, and by whatever run: a run that has lost the plan to a later claim finishes the plan
in the place of its holder. Only when the holder has finished the plan first does the late finish
leave the plan alone. Unless the plan was taken over, only its holder finishes it.
-/

namespace Showrunner

namespace Dispatch

open Store (PlanRow)

section

variable {id : Text} {move : Move} {v v' : View}

/-- A plan leaves processing only when a run finishes it. -/
theorem Turn.leaves (h : Turn id move v v') (hbefore : v.Processing) (hafter : ¬ v'.Processing) :
    ∃ run, v'.notes = v.notes ++ [.finished run id true] := by
  obtain ⟨r, hr, hprocessing⟩ := hbefore
  cases h with
  | passed hruns => exact absurd ⟨r, hr, hprocessing⟩ hafter
  | created hfree => cases hfree.symm.trans hr
  | requeued hrow hrequeueable =>
    have hfree := View.not_processing hrow (Store.ne_processing_of_isRequeueable hrequeueable)
    exact absurd ⟨r, hr, hprocessing⟩ hfree
  | claimed hrow hstatus hpatient => exact absurd ⟨_, rfl, rfl⟩ hafter
  | called htasks hdates hphase => exact absurd ⟨r, hr, hprocessing⟩ hafter
  | finished htasks hrow hprocessing hends => exact ⟨_, rfl⟩
  | lapsed htasks hfinishing hfree => exact absurd hprocessing (hfree r hr)
  | faulted htasks hfinishing hpast => exact absurd ⟨r, hr, hprocessing⟩ hafter

/-- A finish is made for a task that is not over. It ends the processing of a plan that is held,
and does nothing to one that is not. -/
theorem Turn.finish (h : Turn id move v v') (hheld : v.Held) {run : Nat} {took : Bool}
    (hnotes : v'.notes = v.notes ++ [.finished run id took]) :
    (∃ task ∈ v.tasks, task.run = run ∧ task.phase.isOver = false) ∧
      ((holderOf v.notes).isSome = true ∧ took = true ∧ ¬ v'.Processing ∨
        (holderOf v.notes).isSome = false ∧ took = false ∧ v'.row = v.row) := by
  cases h with
  | passed hruns => simp at hnotes
  | created hfree => simp at hnotes
  | requeued hrow hrequeueable => simp at hnotes
  | claimed hrow hstatus hpatient => simp at hnotes
  | called htasks hdates hphase => simp at hnotes
  | finished htasks hrow hprocessing hends =>
    obtain ⟨hrun, rfl⟩ : _ = run ∧ true = took := by simpa using hnotes
    refine ⟨⟨_, mem_tasks htasks, hrun, hends.not_isOver⟩, .inl ⟨?_, rfl, ?_⟩⟩
    · exact hheld.mp ⟨_, hrow, hprocessing⟩
    · rintro ⟨r', hr', hstill⟩
      cases hr'
      exact hends.status_ne hstill
  | lapsed htasks hfinishing hfree =>
    obtain ⟨hrun, rfl⟩ : _ = run ∧ false = took := by simpa using hnotes
    refine ⟨⟨_, mem_tasks htasks, hrun, Phase.not_isOver_of_isFinishing hfinishing⟩,
      .inr ⟨?_, rfl, rfl⟩⟩
    rw [Bool.eq_false_iff]
    intro hholder
    obtain ⟨r, hr, hprocessing⟩ := hheld.mpr hholder
    exact hfree r hr hprocessing
  | faulted htasks hfinishing hpast => simp at hnotes

end

/-- A plan that is being processed is held, and leaves processing only when a run finishes it. A
finish is made by a run that claimed the plan. It takes effect exactly while some run holds the
plan, whichever run makes it, and changes nothing otherwise. If nobody ever took the plan over,
only its holder finishes it. -/
theorem finish_takes_effect_iff_held (moves : List Move) (id : Text) :
    let w := World.after moves
    let notes := notesOf id w.journal.notes
    (w.Processes id ↔ (holderOf notes).isSome = true) ∧
    ∀ move,
      let w' := w.step move
      let notes' := notesOf id w'.journal.notes
      (w.Processes id → ¬ w'.Processes id → ∃ run, notes' = notes ++ [.finished run id true]) ∧
      ∀ run took, notes' = notes ++ [.finished run id took] →
        (∃ p taken, Note.claimed run p taken ∈ notes) ∧
        (took = true ↔ (holderOf notes).isSome = true) ∧
        (took = true → ¬ w'.Processes id) ∧
        (took = false → w'.journal.store.row? id = w.journal.store.row? id) ∧
        ((∀ note ∈ notes, note.takesOver = false) → holderOf notes = some run) := by
  intro w notes
  have hsound := sound_after moves id
  refine ⟨hsound.held, fun move => ?_⟩
  have hturn := turn_step (keyed_after moves) move id
  refine ⟨hturn.leaves, fun run took hnotes => ?_⟩
  obtain ⟨⟨task, htask, rfl, hactive⟩, heffect⟩ := hturn.finish hsound.held hnotes
  obtain ⟨before, taken, between, hclaimed, -⟩ := hsound.traced.split htask
  have hmem : Note.claimed task.run task.plan taken ∈ ((World.after moves).view id).notes := by
    rw [hclaimed]
    exact List.mem_append_right before List.mem_cons_self
  have hholder : (∀ note ∈ notes, note.takesOver = false) → holderOf notes = some task.run :=
    fun huntaken => (hsound.exclusive huntaken task htask hactive).1
  refine ⟨⟨task.plan, taken, hmem⟩, ?_⟩
  rcases heffect with ⟨hheld, rfl, hends⟩ | ⟨hfree, rfl, hrow⟩
  · exact ⟨⟨fun _ => hheld, fun _ => rfl⟩, fun _ => hends, fun h => (nomatch h), hholder⟩
  · refine ⟨⟨fun h => (nomatch h), fun hheld => ?_⟩, fun h => (nomatch h), fun _ => hrow, hholder⟩
    exact absurd (hfree.symm.trans hheld) Bool.false_ne_true

/-- A plan is claimed and rendered, and taken over an hour later. -/
def overtaken : List Move :=
  [.create (text "a") (Store.sampleDraft (.ofHours 1) none) (.ofHours 0),
    .claim 20 none (smooth (.ofHours 2)),
    .proceed 0 (smooth (.ofHours 2)),
    .claim 20 (some 3600000000) (smooth (.ofHours 3))]

/-- The run that took the plan over finishes it; the finish of the other run then changes
nothing. -/
theorem finish_after_holder :
    let w := World.after (overtaken ++
      [.proceed 1 (smooth (.ofHours 3)), .proceed 1 (smooth (.ofHours 3))])
    (w.step (.proceed 0 (smooth (.ofHours 4)))).journal.store.row? (text "a") =
      w.journal.store.row? (text "a") := by
  have htheorem := finish_takes_effect_iff_held (overtaken ++
    [.proceed 1 (smooth (.ofHours 3)), .proceed 1 (smooth (.ofHours 3))]) (text "a")
  have hmove := htheorem.2 (.proceed 0 (smooth (.ofHours 4)))
  obtain ⟨-, -, -, hrow, -⟩ := hmove.2 0 false (by decide +kernel)
  exact hrow rfl

/-- A run finishes a plan that a later claim took over: the plan leaves processing although the
latest claim of it is another run's. -/
theorem superseded_run_finishes :
    let w := World.after overtaken
    let w' := w.step (.proceed 0 (smooth (.ofHours 3)))
    latestClaim (notesOf (text "a") w.journal.notes) = some 1 ∧
    notesOf (text "a") w'.journal.notes =
      notesOf (text "a") w.journal.notes ++ [.finished 0 (text "a") true] ∧
    (w.journal.store.row? (text "a")).map (·.status) = some .processing ∧
    (w'.journal.store.row? (text "a")).map (·.status) = some .completed := by
  decide +kernel

end Dispatch

end Showrunner
