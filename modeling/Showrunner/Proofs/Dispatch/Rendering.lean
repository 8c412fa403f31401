import Showrunner.Proofs.Dispatch.Holders
import Showrunner.Proofs.Store.Operations

/-!
# When a plan is rendered

A run claims all its plans at once and comes to each of them in its turn, without looking at the
plan again. It renders each plan of its claim once. While it waits, another run may take the plan
over, and even finish it; the plan is rendered all the same. The run still holds the plan exactly
if nobody has claimed it and nobody has finished it since, and always if nobody ever took the plan
over.
-/

namespace Showrunner

namespace Dispatch

/-- A call is made for a task that waited. -/
theorem Turn.call {id : Text} {move : Move} {v v' : View} (h : Turn id move v v') {run : Nat}
    {p : Plan} (hnotes : v'.notes = v.notes ++ [.called run p]) : ⟨run, p, .waiting⟩ ∈ v.tasks := by
  cases h with
  | passed hruns => simp at hnotes
  | created hfree => simp at hnotes
  | requeued hrow hrequeueable => simp at hnotes
  | claimed hrow hstatus hpatient => simp at hnotes
  | called htasks hdates hphase =>
    obtain ⟨rfl, rfl⟩ : _ = run ∧ _ = p := by simpa using hnotes
    exact mem_tasks htasks
  | finished htasks hrow hprocessing hends => simp at hnotes
  | lapsed htasks hfinishing hfree => simp at hnotes
  | faulted htasks hfinishing hpast => simp at hnotes

/-- The plan of a waiting task is rendered next, whatever has become of it. -/
theorem notes_of_waiting {w : World} {i run : Nat} {p : Plan}
    (htask : w.tasks[i]? = some ⟨run, p, .waiting⟩) (c : Circumstances) :
    (w.step (.proceed i c)).journal.notes = w.journal.notes ++ [.called run p] := by
  simp only [World.step, htask, Phase.proceed, attempt, host]
  cases c.reply with
  | error fault => rfl
  | ok reply =>
    simp only
    rcases nextStart c.dates p with _ | fault | next <;> rfl

/-- A run is in the midst of a plan if it is being processed and was claimed last by the run. That
is so exactly if the run holds it. -/
theorem View.Held.iff_holder {v : View} (hv : v.Held) (run : Nat) :
    v.Processing ∧ latestClaim v.notes = some run ↔ holderOf v.notes = some run := by
  constructor
  · rintro ⟨hprocessing, hlatest⟩
    obtain ⟨holder, hholder⟩ := Option.isSome_iff_exists.mp (hv.mp hprocessing)
    rw [hholder, ← hlatest, latestClaim_of_holder hholder]
  · intro hholder
    exact ⟨hv.mpr (by rw [hholder]; rfl), latestClaim_of_holder hholder⟩

/-- The plan of every waiting task is rendered, whatever has become of it. Every call is made for a
plan that the run has claimed and has not rendered yet. At the call the plan is being processed and
its latest claim is the run's own, exactly if since that claim nobody has claimed it and nobody has
finished it; this is so whenever the plan was never taken over. -/
theorem call_follows_claim (moves : List Move) :
    let w := World.after moves
    (∀ i c run p, w.tasks[i]? = some ⟨run, p, .waiting⟩ →
      (w.step (.proceed i c)).journal.notes = w.journal.notes ++ [.called run p]) ∧
    ∀ move run p,
      let notes := notesOf p.id w.journal.notes
      notesOf p.id (w.step move).journal.notes = notes ++ [.called run p] →
      (∀ q, Note.called run q ∉ notes) ∧
      (∃ before taken between, notes = before ++ Note.claimed run p taken :: between ∧
        (w.Processes p.id ∧ latestClaim notes = some run ↔
          ∀ note ∈ between, note.unsettles = false)) ∧
      ((∀ note ∈ notes, note.takesOver = false) →
        w.Processes p.id ∧ latestClaim notes = some run) := by
  intro w
  refine ⟨fun i c run p htask => notes_of_waiting htask c, ?_⟩
  intro move run p notes hnotes
  have hsound := sound_after moves p.id
  have hturn := turn_step (keyed_after moves) move p.id
  have htask := hturn.call hnotes
  have hholds := hsound.held.iff_holder run
  refine ⟨?_, ?_, fun huntaken => ?_⟩
  · intro q hq
    have hcall : (run, q) ∈ notes.filterMap Note.call? := List.mem_filterMap.mpr ⟨_, hq, rfl⟩
    exact hsound.counted.waiting _ htask rfl _ hcall rfl
  · obtain ⟨before, taken, between, hsplit, hclaims⟩ := hsound.traced.split htask
    refine ⟨before, taken, between, hsplit, hholds.trans ?_⟩
    rw [hsplit, holderOf, List.foldl_append, List.foldl_cons, holder_eq_iff hclaims]
    simp [holderAfter]
  · exact hholds.mpr (hsound.exclusive huntaken _ htask rfl).1

/-- A plan that is claimed and not taken over is being processed when the run renders it, and its
latest claim is the run's own. -/
theorem call_of_only_claim :
    let w := World.after
      [.create (text "a") (Store.sampleDraft (.ofHours 1) none) (.ofHours 0),
        .claim 20 none (smooth (.ofHours 2))]
    w.Processes (text "a") ∧ latestClaim (notesOf (text "a") w.journal.notes) = some 0 := by
  have hcalls := (call_follows_claim
    [.create (text "a") (Store.sampleDraft (.ofHours 1) none) (.ofHours 0),
      .claim 20 none (smooth (.ofHours 2))]).2
  have hcall := hcalls (.proceed 0 (smooth (.ofHours 2))) 0
    ((Store.PlanRow.new (text "a") (Store.sampleDraft (.ofHours 1) none) (Stamp.ofHours 1).wall
      (Stamp.ofHours 0).wall).claim (Stamp.ofHours 2).wall).toPlan
  obtain ⟨-, -, hheld⟩ := hcall (by decide +kernel)
  exact hheld (by decide +kernel)

/-- Two plans are claimed together; while the first is rendered, both are taken over an hour later
and the second is finished. -/
def outrun : List Move :=
  [.create (text "a") (Store.sampleDraft (.ofHours 1) none) (.ofHours 0),
    .create (text "b") (Store.sampleDraft (.ofHours 1) none) (.ofHours 0),
    .claim 20 none (smooth (.ofHours 2)),
    .proceed 0 (smooth (.ofHours 2)),
    .claim 20 (some 3600000000) (smooth (.ofHours 3)),
    .proceed 3 (smooth (.ofHours 3)),
    .proceed 3 (smooth (.ofHours 3))]

/-- What a claim makes of a world that takes these rows at a time. -/
def World.taking (w : World) (due : List Store.PlanRow) (time : Wall) : World :=
  let claimed := w.journal.store.taking due time
  { journal := ⟨claimed.store, w.journal.notes ++
      claimed.plans.map fun p => .claimed w.runs p (claimed.reclaimed.contains p.id)⟩
    tasks := w.tasks ++ claimed.plans.map fun p => ⟨w.runs, p, .waiting⟩
    runs := w.runs + 1 }

/-- When nothing fails, a claim takes the rows that are due. -/
theorem step_claim_smooth {w : World} (hw : w.journal.store.Keyed) {rows due : List Store.PlanRow}
    {limit : Int} {now : Stamp} {staleAfter : Option Int} {before : Option Wall} {time : Wall}
    (hrows : w.journal.store.plans = some rows) (hlimit : 0 < limit) (hsmall : limit < 2 ^ 63)
    (hbefore : Store.staleBefore now staleAfter = .ok before) (htime : Store.instantOf now = .ok time)
    (hdue : Store.dueRows w.journal.store.planRows limit.toNat time before = due)
    (hfew : due.length ≤ Store.variableLimit) :
    w.step (.claim limit staleAfter (smooth now)) = w.taking due time := by
  have hclaim := Store.claim_of_due hw hrows hlimit hsmall hbefore htime hdue hfew
  simp only [World.step, host, smooth, Circumstances.reach, hclaim]
  rfl

/-- Both plans are scheduled. -/
def bothScheduled : World := World.after (outrun.take 2)

/-- Both are claimed, and the first is rendered. -/
def firstRendered : World :=
  (bothScheduled.taking bothScheduled.journal.store.planRows (Stamp.ofHours 2).wall).step
    (.proceed 0 (smooth (.ofHours 2)))

/-- Both are taken over, and the second is finished. -/
def secondFinished : World :=
  ((firstRendered.taking firstRendered.journal.store.planRows (Stamp.ofHours 3).wall).step
    (.proceed 3 (smooth (.ofHours 3)))).step (.proceed 3 (smooth (.ofHours 3)))

/-- The first claim takes both plans, as their rows stand. -/
theorem step_bothScheduled : bothScheduled.step (.claim 20 none (smooth (.ofHours 2))) =
    bothScheduled.taking bothScheduled.journal.store.planRows (Stamp.ofHours 2).wall := by
  refine step_claim_smooth (keyed_after _) rfl (by decide) (by decide) rfl (Store.instantOf_utc _) ?_
    (by decide +kernel)
  rw [Store.dueRows_of_pairwise (by decide +kernel)]
  decide +kernel

/-- So does the second claim. -/
theorem step_firstRendered (hkeyed : firstRendered.journal.store.Keyed) :
    firstRendered.step (.claim 20 (some 3600000000) (smooth (.ofHours 3))) =
      firstRendered.taking firstRendered.journal.store.planRows (Stamp.ofHours 3).wall := by
  refine step_claim_smooth hkeyed rfl (by decide) (by decide) rfl (Store.instantOf_utc _) ?_
    (by decide +kernel)
  rw [Store.dueRows_of_pairwise (by decide +kernel)]
  decide +kernel

/-- The moves of `outrun` come to that. -/
theorem after_outrun : World.after outrun = secondFinished := by
  have hfirst : World.after (outrun.take 4) = firstRendered := by
    rw [firstRendered, ← step_bothScheduled]
    simp only [bothScheduled, outrun, World.after, List.take_succ_cons, List.take_zero, List.foldl_cons,
      List.foldl_nil]
  have hsecond := step_firstRendered (hfirst ▸ keyed_after _)
  rw [secondFinished, ← hsecond, ← hfirst]
  simp only [outrun, World.after, List.take_succ_cons, List.take_zero, List.foldl_cons, List.foldl_nil]

/-- A run renders a plan that another run has taken over and finished meanwhile: it is rendered a
second time, though it is not being processed and its latest claim is the other run's. -/
theorem outrun_plan_rendered_again :
    let w := World.after outrun
    let w' := w.step (.proceed 1 (smooth (.ofHours 3)))
    (notesOf (text "b") w.journal.notes).filterMap (fun note => note.call?.map Prod.fst) = [1] ∧
    (notesOf (text "b") w'.journal.notes).filterMap (fun note => note.call?.map Prod.fst) = [1, 0] ∧
    (w.journal.store.row? (text "b")).map (·.status) = some .completed ∧
    latestClaim (notesOf (text "b") w.journal.notes) = some 1 := by
  rw [after_outrun]
  decide +kernel

end Dispatch

end Showrunner
