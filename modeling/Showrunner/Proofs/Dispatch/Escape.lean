import Showrunner.Proofs.Dispatch.Pool
import Showrunner.Proofs.Recurrence.Ending
import Showrunner.Proofs.Store.Recovery

/-!
# What escapes a run

What goes wrong with one plan is recorded with that plan, so a run whose claim succeeds reports one
result for each plan of the claim, whatever the renderer and the writes come to, unless the search for
the next start of a plan never ends: the run stays with that plan and does not come back. Only a claim
that is refused escapes a run, and it leaves everything as it was.

A claim says of its own accord that it could not run if the table of plans is missing, or if more plans
are due than a statement has variables. It is refused on two other grounds of which it does not say so:
its staleness limit leads out of the calendar, or it asks for more plans than 64 bits can count. These
faults go through a run, and through a trigger that puts up with failed claims, as they are.
-/

namespace Showrunner

namespace Store

/-- A time moved back by a staleness limit stays in the calendar. -/
def Reaches (time : Wall) (staleAfter : Option Int) : Prop :=
  ∀ duration ∈ staleAfter, 0 ≤ (time.val : Int) - duration ∧ (time.val : Int) - duration < wallCount

/-- Say that an integer has more than 64 bits. -/
def tooLarge : Fault := .overflow (text "Python int too large to convert to SQLite INTEGER")

/-- A claim at a time of universal time is refused, with a fault. -/
inductive Refuses (s : Store) (limit : Int) (time : Wall) (staleAfter : Option Int) : Fault → Prop
  | outOfCalendar (hcutoff : ¬Reaches time staleAfter) :
      Refuses s limit time staleAfter Stamp.outOfRange
  | tableMissing (hcutoff : Reaches time staleAfter) (htable : s.plans = none) :
      Refuses s limit time staleAfter (claimFailure (missing TableName.plans.text))
  | limitTooLarge (hcutoff : Reaches time staleAfter) (htable : s.plans ≠ none)
      (hlimit : 2 ^ 63 ≤ limit) : Refuses s limit time staleAfter tooLarge
  | tooManyDue {before : Option Wall} (hcutoff : Reaches time staleAfter) (htable : s.plans ≠ none)
      (hlimit : limit < 2 ^ 63) (hbefore : staleBefore (.utc time) staleAfter = .ok before)
      (hmany : variableLimit < (dueRows s.planRows limit.toNat time before).length) :
      Refuses s limit time staleAfter (claimFailure tooManyVariables)

variable {s : Store} {limit : Int} {time : Wall} {staleAfter : Option Int}

/-- A stamp of universal time is moved within the calendar. -/
theorem add_utc_of_range {micros : Int}
    (h : 0 ≤ (time.val : Int) + micros ∧ (time.val : Int) + micros < wallCount) :
    ∃ moved, (Stamp.utc time).add micros = .ok (.utc moved) := by
  refine ⟨⟨((time.val : Int) + micros).toNat, by omega⟩, ?_⟩
  have hfound : Wall.ofMicros? ((Stamp.utc time).wall.val + micros) =
      some ⟨((time.val : Int) + micros).toNat, by omega⟩ := dif_pos h
  rw [Stamp.add, Stamp.add?, hfound]
  rfl

/-- A stamp of universal time is not moved out of the calendar. -/
theorem add_utc_of_not_range {micros : Int}
    (h : ¬(0 ≤ (time.val : Int) + micros ∧ (time.val : Int) + micros < wallCount)) :
    (Stamp.utc time).add micros = .error Stamp.outOfRange := by
  have hmissing : Wall.ofMicros? ((Stamp.utc time).wall.val + micros) = none := dif_neg h
  rw [Stamp.add, Stamp.add?, hmissing]
  rfl

/-- The staleness limit of a time that it leaves in the calendar is found. -/
theorem staleBefore_of_reaches (h : Reaches time staleAfter) :
    ∃ before, staleBefore (.utc time) staleAfter = .ok before := by
  cases staleAfter with
  | none => exact ⟨none, rfl⟩
  | some duration =>
    by_cases hzero : duration = 0
    · exact ⟨none, by rw [staleBefore, if_pos hzero]⟩
    · have hrange := h duration rfl
      obtain ⟨before, hbefore⟩ := @add_utc_of_range time (-duration) (by omega)
      exact ⟨some before, staleBefore_of_add hzero hbefore (instantOf_utc before)⟩

/-- A staleness limit that takes a time out of the calendar is refused. -/
theorem staleBefore_of_not_reaches (h : ¬Reaches time staleAfter) :
    staleBefore (.utc time) staleAfter = .error Stamp.outOfRange := by
  cases staleAfter with
  | none => exact absurd (fun _ hmem => nomatch hmem) h
  | some duration =>
    have hrange : ¬(0 ≤ (time.val : Int) + -duration ∧ (time.val : Int) + -duration < wallCount) :=
      fun hin => h fun d hd => by
        obtain rfl := Option.some.inj hd
        omega
    have hnonzero : duration ≠ 0 := by
      have hlt := time.isLt
      omega
    rw [staleBefore]
    simp only [if_neg hnonzero, add_utc_of_not_range hrange, bind, Except.bind]

/-- An integer of more than 64 bits has no place in a column. -/
theorem storable_of_large (hlimit : 2 ^ 63 ≤ limit) : storable limit = .error tooLarge := by
  rw [storable, if_neg (by omega)]
  rfl

/-- A claim that is refused fails, with the fault of the refusal. -/
theorem claim_of_refuses (hs : s.Keyed) (hlimit : 0 < limit) {fault : Fault}
    (h : s.Refuses limit time staleAfter fault) :
    s.claim limit (.utc time) staleAfter = .error fault := by
  cases h with
  | outOfCalendar hcutoff =>
    rw [claim, if_neg (by omega), instantOf_utc, staleBefore_of_not_reaches hcutoff]
    rfl
  | tableMissing hcutoff htable =>
    obtain ⟨before, hbefore⟩ := staleBefore_of_reaches hcutoff
    rw [claim, if_neg (by omega), instantOf_utc, hbefore, htable]
    rfl
  | limitTooLarge hcutoff htable hlarge =>
    obtain ⟨before, hbefore⟩ := staleBefore_of_reaches hcutoff
    obtain ⟨rows, hrows⟩ := Option.ne_none_iff_exists'.mp htable
    rw [claim, if_neg (by omega), instantOf_utc, hbefore, hrows, storable_of_large hlarge]
    rfl
  | tooManyDue hcutoff htable hsmall hbefore hmany =>
    obtain ⟨rows, hrows⟩ := Option.ne_none_iff_exists'.mp htable
    rw [planRows_of_some hrows] at hmany
    rw [claim_eq hs hrows hlimit hsmall hbefore (instantOf_utc time), if_pos hmany]

/-- A claim that asks for plans succeeds unless it is refused. -/
theorem claim_succeeds_or_refused (hs : s.Keyed) (hlimit : 0 < limit) :
    (∃ claimed, s.claim limit (.utc time) staleAfter = .ok claimed) ∨
      ∃ fault, s.Refuses limit time staleAfter fault := by
  by_cases hcutoff : Reaches time staleAfter
  · cases htable : s.plans with
    | none => exact .inr ⟨_, .tableMissing hcutoff htable⟩
    | some rows =>
      have hthere : s.plans ≠ none := htable ▸ Option.some_ne_none rows
      by_cases hlarge : 2 ^ 63 ≤ limit
      · exact .inr ⟨_, .limitTooLarge hcutoff hthere hlarge⟩
      · have hsmall := Int.not_le.mp hlarge
        obtain ⟨before, hbefore⟩ := staleBefore_of_reaches hcutoff
        by_cases hmany : variableLimit < (dueRows s.planRows limit.toNat time before).length
        · exact .inr ⟨_, .tooManyDue hcutoff hthere hsmall hbefore hmany⟩
        · exact .inl ⟨_, claim_of_due hs htable hlimit hsmall hbefore (instantOf_utc time) rfl
            (Nat.not_lt.mp hmany)⟩
  · exact .inr ⟨_, .outOfCalendar hcutoff⟩

/-- A claim at a time of universal time fails exactly if it asks for plans and is refused. -/
theorem claim_error_iff (hs : s.Keyed) {fault : Fault} :
    s.claim limit (.utc time) staleAfter = .error fault ↔
      0 < limit ∧ s.Refuses limit time staleAfter fault := by
  refine ⟨fun h => ?_, fun h => claim_of_refuses hs h.1 h.2⟩
  by_cases hlimit : 0 < limit
  · rcases claim_succeeds_or_refused hs hlimit with ⟨claimed, hclaimed⟩ | ⟨fault', hrefuses⟩
    · cases hclaimed.symm.trans h
    · obtain rfl := Except.error.inj ((claim_of_refuses hs hlimit hrefuses).symm.trans h)
      exact ⟨hlimit, hrefuses⟩
  · rw [claim, if_pos (by omega)] at h
    cases h

end Store

namespace Dispatch

open Web (Stage)

/-- A report accounts for plans: it has a result for each, in order, and counts them. -/
structure Accounts (plans : List Plan) (report : Plan.Report) : Prop where
  results : report.results.map Plan.Result.planId = plans.map Plan.id
  processed : report.processed = plans.length
  successful : report.successful = report.results.countP (·.status = .success)
  failed : report.failed = report.results.countP (·.status = .failed)

/-- A run is orderly if it comes back with a report, or with the fault of a claim that could not run and
the stage as it was. -/
def Orderly {σ : Type} (s : Stage σ) : Stage σ × Option (Except Fault Plan.Report) → Prop
  | (_, some (.ok _)) => True
  | (s', some (.error (.claim _))) => s' = s
  | (_, some (.error _)) => False
  | (_, none) => False

/-- A run over plans stays with one of them: it has finished those before it and rendered it, and the search
for its next start never ends. -/
inductive Stays {σ : Type} (host : Host σ) : List Plan → σ → Prop
  | here {p : Plan} {rest : List Plan} {s s' : σ} {reply : Json}
      (hrender : host.render p s = (s', .ok reply))
      (hsearch : Recurrence.advance (host.dates s') p.startsAt p.rrule p.anchorAt = .ok .endless) :
      Stays host (p :: rest) s
  | later {p : Plan} {rest : List Plan} {s s' : σ} {result : Plan.Result}
      (hrun : runPlan host p s = (s', some result)) (hrest : Stays host rest s') :
      Stays host (p :: rest) s

variable {σ : Type} {host : Host σ}

/-- The report of results that name the plans in order accounts for the plans. -/
theorem accounts_ofResults {plans : List Plan} {results : List Plan.Result}
    (h : results.map Plan.Result.planId = plans.map Plan.id) :
    Accounts plans (.ofResults results) := by
  have hlength : results.length = plans.length := by
    simpa only [List.length_map] using congrArg List.length h
  have hsplit := List.length_eq_countP_add_countP (fun r : Plan.Result => r.status = .success)
    (l := results)
  have hfailed : results.countP (fun r => ¬decide (r.status = .success) = true) =
      results.countP (·.status = .failed) :=
    List.countP_congr fun r _ => by cases r.status <;> simp
  refine ⟨h, congrArg Int.ofNat hlength, rfl, ?_⟩
  simp only [Plan.Report.ofResults]
  omega

/-! ## Plans that are worked through in order -/

/-- The result of a plan names it, whatever the phases of the plan come to. -/
theorem planId_settle (p : Plan) (found : Except Fault (Option Stamp)) (s : σ) :
    (settle host p found s).2.planId = p.id := by
  rcases found with fault | next
  · rfl
  · rw [settle]
    rcases host.complete p.id next (host.now s) s with ⟨s', fault | _ | _⟩ <;> rfl

/-- Working through a plan gives a result that names it, if it comes back. -/
theorem planId_runPlan {p : Plan} {s : σ} {result : Plan.Result}
    (h : (runPlan host p s).2 = some result) : result.planId = p.id := by
  rw [runPlan] at h
  split at h
  · cases h
  · cases h
    exact planId_settle p _ _

/-- Working through plans gives a result for each, in order, if it comes back. -/
theorem planIds_runPlans {plans : List Plan} {s : σ} {results : List Plan.Result}
    (h : (runPlans host plans s).2 = some results) :
    results.map Plan.Result.planId = plans.map Plan.id := by
  induction plans generalizing s results with
  | nil =>
    cases h
    rfl
  | cons p rest ih =>
    rw [runPlans] at h
    split at h
    · cases h
    · next s' result hrun =>
      obtain ⟨more, hmore, rfl⟩ := Option.map_eq_some_iff.mp h
      rw [List.map_cons, List.map_cons, planId_runPlan (congrArg Prod.snd hrun), ih hmore]

/-- A search never ends if it gives candidates without end. -/
theorem nextStart_eq_none {dates : Recurrence.Dates} {p : Plan} :
    nextStart dates p = none ↔ Recurrence.advance dates p.startsAt p.rrule p.anchorAt = .ok .endless := by
  unfold nextStart
  rcases Recurrence.advance dates p.startsAt p.rrule p.anchorAt with fault | t | _ | _ | _ <;> simp

/-- Working through a plan does not come back exactly if the plan is rendered and its search never ends. -/
theorem runPlan_eq_none {p : Plan} {s : σ} : (runPlan host p s).2 = none ↔
    ∃ s' reply, host.render p s = (s', .ok reply) ∧
      Recurrence.advance (host.dates s') p.startsAt p.rrule p.anchorAt = .ok .endless := by
  have hattempt : (runPlan host p s).2 = none ↔ (attempt host p s).2 = none := by
    rw [runPlan]
    rcases attempt host p s with ⟨s', _ | found⟩ <;> simp
  rw [hattempt, attempt]
  rcases hrender : host.render p s with ⟨s', fault | reply⟩
  · simp
  · simp [nextStart_eq_none]

/-- Working through plans does not come back exactly if it stays with one of them. -/
theorem runPlans_eq_none {plans : List Plan} {s : σ} :
    (runPlans host plans s).2 = none ↔ Stays host plans s := by
  induction plans generalizing s with
  | nil => exact iff_of_false (fun h => nomatch h) fun h => nomatch h
  | cons p rest ih =>
    rw [runPlans]
    rcases hrun : runPlan host p s with ⟨s', _ | result⟩
    · obtain ⟨s₁, reply, hrender, hsearch⟩ := runPlan_eq_none.mp (congrArg Prod.snd hrun)
      exact iff_of_true rfl (.here hrender hsearch)
    · refine Option.map_eq_none_iff.trans (ih.trans ⟨.later hrun, fun h => ?_⟩)
      cases h with
      | here hrender hsearch =>
        cases (congrArg Prod.snd hrun).symm.trans (runPlan_eq_none.mpr ⟨_, _, hrender, hsearch⟩)
      | later hrun' hrest =>
        cases hrun.symm.trans hrun'
        exact hrest

/-! ## Plans side by side -/

/-- A plan that is over has a result that names it. -/
def Names (task : Plan × Phase) : Prop := ∀ result, task.2 = .done result → result.planId = task.1.id

/-- A pool serves a claim: its plans are those of the claim in order, and their results name them. -/
structure Pool.Serves (plans : List Plan) (pool : Pool σ) : Prop where
  plans : pool.tasks.map Prod.fst = plans
  names : ∀ task ∈ pool.tasks, Names task

/-- Whatever the phases of a plan come to, its result names it. -/
theorem names_proceed {p : Plan} {phase : Phase} (h : Names (p, phase)) (s : σ) :
    Names (p, (phase.proceed host p s).2) := by
  cases phase with
  | waiting =>
    intro result hdone
    simp only [Phase.proceed] at hdone
    rcases hattempt : attempt host p s with ⟨s', _ | fault | next⟩ <;> rw [hattempt] at hdone <;>
      cases hdone
  | searching =>
    intro result hdone
    cases hdone
  | completing next =>
    intro result hdone
    simp only [Phase.proceed] at hdone
    rcases hcomplete : host.complete p.id next (host.now s) s with ⟨s', fault | _ | _⟩ <;>
      rw [hcomplete] at hdone <;> cases hdone <;> rfl
  | failing fault =>
    intro result hdone
    cases hdone
    rfl
  | done result => exact h

variable {plans : List Plan} {pool : Pool σ} {workers : Int}

/-- A pool starts out serving its claim. -/
theorem serves_start (s : σ) (plans : List Plan) : (Pool.start s plans).Serves plans where
  plans := by simp [Pool.start, Function.comp_def]
  names := fun task htask result hdone => by
    obtain ⟨p, -, rfl⟩ := List.mem_map.mp htask
    cases hdone

/-- A step of a pool leaves it serving its claim. -/
theorem Pool.Serves.advance (hpool : pool.Serves plans) {i : Nat}
    (h : pool.mayAdvance workers i = true) : (pool.advance host i).Serves plans := by
  obtain ⟨first, p, phase, rest, htasks, -, hadvance⟩ := Pool.split_of_mayAdvance h
  obtain ⟨hplans, hnames⟩ := hpool
  rw [htasks] at hplans hnames
  rw [hadvance]
  refine ⟨by simpa using hplans, fun task htask => ?_⟩
  rcases List.mem_append.mp htask with hfirst | hlast
  · exact hnames task (List.mem_append_left _ hfirst)
  · rcases List.mem_cons.mp hlast with rfl | hrest
    · exact names_proceed (hnames _ (List.mem_append_right _ List.mem_cons_self)) pool.state
    · exact hnames task (List.mem_append_right _ (List.mem_cons_of_mem _ hrest))

/-- All steps of a pool leave it serving its claim. -/
theorem Pool.Serves.follow (hpool : pool.Serves plans) {schedule : List Nat}
    (h : pool.admits host workers schedule = true) : (pool.follow host schedule).Serves plans := by
  induction schedule generalizing pool with
  | nil => exact hpool
  | cons i rest ih =>
    obtain ⟨hstep, hrest⟩ := Bool.and_eq_true_iff.mp h
    exact ih (hpool.advance hstep) hrest

/-- The results of plans that are over name them in order. -/
theorem planIds_of_isOver {tasks : List (Plan × Phase)} (hnames : ∀ task ∈ tasks, Names task)
    (hover : ∀ task ∈ tasks, task.2.isOver = true) :
    (tasks.filterMap fun task => task.2.result?).map Plan.Result.planId =
      (tasks.map Prod.fst).map Plan.id := by
  induction tasks with
  | nil => rfl
  | cons task rest ih =>
    obtain ⟨p, phase⟩ := task
    obtain ⟨hname, hothers⟩ := List.forall_mem_cons.mp hnames
    obtain ⟨hfirst, hrest⟩ := List.forall_mem_cons.mp hover
    cases phase with
    | done result =>
      have hid : result.planId = p.id := hname result rfl
      simpa [Phase.result?, hid] using ih hothers hrest
    | waiting | searching | completing next | failing fault => cases hfirst

/-- A pool whose plans are over accounts for its claim. -/
theorem Pool.Serves.accounts (hpool : pool.Serves plans) (hover : pool.isOver = true) :
    Accounts plans pool.report :=
  accounts_ofResults
    ((planIds_of_isOver hpool.names (List.all_eq_true.mp hover)).trans (by rw [hpool.plans]))

/-! ## Runs -/

section

variable {host : Host (Stage σ)} {s s' : Stage σ} {time : Wall} {limit : Int}
  {staleAfter : Option Int}

/-- A stage fails to claim exactly if its store does, and stays as it was. -/
theorem stage_claim_error_iff {now : Stamp} {fault : Fault} :
    s.claim limit now staleAfter = (s', .error fault) ↔
      s' = s ∧ s.studio.store.claim limit now staleAfter = .error fault := by
  rw [Stage.claim]
  cases s.studio.store.claim limit now staleAfter with
  | ok taken =>
    constructor
    · intro h
      cases h
    · rintro ⟨-, h⟩
      cases h
  | error fault' => rw [Prod.mk.injEq, eq_comm, Except.error.injEq, Except.error.injEq]

/-- A run fails exactly as its claim does. -/
theorem run_error_iff (hs : s.studio.store.Keyed) (hclaim : host.claim = Stage.claim)
    (hnow : host.now s = .utc time) {fault : Fault} :
    run host limit staleAfter s = (s', some (.error fault)) ↔
      s' = s ∧ 0 < limit ∧ s.studio.store.Refuses limit time staleAfter fault := by
  rw [← Store.claim_error_iff hs, ← stage_claim_error_iff, run, hclaim, hnow]
  rcases s.claim limit (.utc time) staleAfter with ⟨claimed, fault' | plans⟩
  · simp only [Prod.mk.injEq, Option.some.injEq, Except.error.injEq]
  · refine iff_of_false (fun h => ?_) fun h => ?_
    · obtain ⟨results, -, hreport⟩ := Option.map_eq_some_iff.mp (congrArg Prod.snd h)
      cases hreport
    · cases h

/-- A run that fails leaves the stage as it was. -/
theorem eq_of_run_error (hclaim : host.claim = Stage.claim) {fault : Fault}
    (h : run host limit staleAfter s = (s', some (.error fault))) : s' = s := by
  rw [run, hclaim] at h
  rcases htaken : s.claim limit (host.now s) staleAfter with ⟨claimed, fault' | plans⟩
  · rw [htaken] at h
    cases h
    exact (stage_claim_error_iff.mp htaken).1
  · rw [htaken] at h
    obtain ⟨results, -, hreport⟩ := Option.map_eq_some_iff.mp (congrArg Prod.snd h)
    cases hreport

/-- A run that reports has claimed plans and worked through them. -/
theorem run_ok (hclaim : host.claim = Stage.claim) {report : Plan.Report}
    (h : run host limit staleAfter s = (s', some (.ok report))) :
    ∃ claimed plans results, s.claim limit (host.now s) staleAfter = (claimed, .ok plans) ∧
      (runPlans host plans claimed).2 = some results ∧ report = .ofResults results := by
  rw [run, hclaim] at h
  rcases htaken : s.claim limit (host.now s) staleAfter with ⟨claimed, fault | plans⟩
  · rw [htaken] at h
    cases h
  · rw [htaken] at h
    obtain ⟨results, hresults, hreport⟩ := Option.map_eq_some_iff.mp (congrArg Prod.snd h)
    exact ⟨claimed, plans, results, rfl, hresults, (Except.ok.inj hreport).symm⟩

/-- A run whose claim succeeds does not come back exactly if it stays with one of the plans. -/
theorem run_eq_none (hclaim : host.claim = Stage.claim) {claimed : Stage σ} {plans : List Plan}
    (htaken : s.claim limit (host.now s) staleAfter = (claimed, .ok plans)) :
    (run host limit staleAfter s).2 = none ↔ Stays host plans claimed := by
  rw [← runPlans_eq_none, run, hclaim, htaken]
  exact Option.map_eq_none_iff

/-- A run that comes back is orderly exactly if its claim is not refused without saying so. -/
theorem orderly_run_iff (hs : s.studio.store.Keyed) (hclaim : host.claim = Stage.claim)
    (hnow : host.now s = .utc time) :
    Orderly s (run host limit staleAfter s) ↔ (run host limit staleAfter s).2 ≠ none ∧
      (limit ≤ 0 ∨ Store.Reaches time staleAfter ∧ (s.studio.store.plans = none ∨ limit < 2 ^ 63)) := by
  rcases hrun : run host limit staleAfter s with ⟨s', _ | fault | report⟩
  · exact iff_of_false id fun h => h.1 rfl
  · obtain ⟨rfl, hlimit, hrefuses⟩ := (run_error_iff hs hclaim hnow).mp hrun
    cases hrefuses with
    | outOfCalendar hcutoff =>
      refine iff_of_false id fun h => ?_
      exact h.2.elim (Int.not_le.mpr hlimit) fun h => hcutoff h.1
    | tableMissing hcutoff htable =>
      exact iff_of_true rfl ⟨Option.some_ne_none _, .inr ⟨hcutoff, .inl htable⟩⟩
    | limitTooLarge hcutoff htable hlarge =>
      refine iff_of_false id fun h => ?_
      exact h.2.elim (Int.not_le.mpr hlimit) fun h => h.2.elim htable (Int.not_lt.mpr hlarge)
    | tooManyDue hcutoff htable hsmall hbefore hmany =>
      exact iff_of_true rfl ⟨Option.some_ne_none _, .inr ⟨hcutoff, .inr hsmall⟩⟩
  · refine iff_of_true trivial ⟨Option.some_ne_none _, or_iff_not_imp_left.mpr fun hlimit => ?_⟩
    have hgranted : ∀ fault, ¬s.studio.store.Refuses limit time staleAfter fault := fun fault h => by
      cases hrun.symm.trans ((run_error_iff hs hclaim hnow).mpr ⟨rfl, Int.not_le.mp hlimit, h⟩)
    have hcutoff : Store.Reaches time staleAfter := by
      by_contra hcutoff
      exact hgranted _ (.outOfCalendar hcutoff)
    refine ⟨hcutoff, or_iff_not_imp_left.mpr fun htable => ?_⟩
    by_contra hlarge
    exact hgranted _ (.limitTooLarge hcutoff htable (Int.not_lt.mp hlarge))

end

/-- A run that starts at a time of universal time fails exactly if its claim asks for plans and is
refused, with the fault of the refusal and the stage as it was. If the claim succeeds, the run comes
back unless it stays with a plan whose search never ends. A run that comes back reports one result for
each plan of its claim, whatever the renderer and the writes come to, and so do any number of workers
that share the plans, in whatever order they take their phases, once every plan is over. So of a run
that comes back only the fault of a claim that could not run escapes, exactly if the staleness limit
stays in the calendar and 64 bits can hold the number of plans asked for, as far as it comes to that. -/
theorem run_fails_iff_refused {host : Host (Stage σ)} (hclaim : host.claim = Stage.claim)
    {s : Stage σ} (hs : s.studio.store.Keyed) {time : Wall} (hnow : host.now s = .utc time)
    (limit : Int) (staleAfter : Option Int) :
    (∀ s' fault, run host limit staleAfter s = (s', some (.error fault)) ↔
      s' = s ∧ 0 < limit ∧ s.studio.store.Refuses limit time staleAfter fault) ∧
    (∀ claimed plans, s.claim limit (.utc time) staleAfter = (claimed, .ok plans) →
      ((run host limit staleAfter s).2 = none ↔ Stays host plans claimed) ∧
      (∀ s' report, run host limit staleAfter s = (s', some (.ok report)) → Accounts plans report) ∧
      ∀ workers schedule, (Pool.start claimed plans).admits host workers schedule = true →
        ((Pool.start claimed plans).follow host schedule).isOver = true →
        Accounts plans ((Pool.start claimed plans).follow host schedule).report) ∧
    (Orderly s (run host limit staleAfter s) ↔ (run host limit staleAfter s).2 ≠ none ∧
      (limit ≤ 0 ∨ Store.Reaches time staleAfter ∧
        (s.studio.store.plans = none ∨ limit < 2 ^ 63))) := by
  refine ⟨fun s' fault => run_error_iff hs hclaim hnow, fun claimed plans htaken => ?_,
    orderly_run_iff hs hclaim hnow⟩
  rw [← hnow] at htaken
  refine ⟨run_eq_none hclaim htaken, fun s' report hrun => ?_, fun workers schedule hadmits hover =>
    ((serves_start claimed plans).follow hadmits).accounts hover⟩
  obtain ⟨claimed', plans', results, htaken', hresults, rfl⟩ := run_ok hclaim hrun
  cases htaken.symm.trans htaken'
  exact accounts_ofResults (planIds_runPlans hresults)

/-- The second hour, with a store that takes no write once the plans are claimed. -/
def lockedOnceClaimed : Host (Stage Nat) :=
  { Web.host secondHour with
    complete := fun _ _ _ s => (s, .error (.store (text "database is locked")))
    fail := fun _ _ _ s => (s, .error (.store (text "database is locked"))) }

/-- A plan that is due at the second hour and is to be repeated on the same day. -/
def restless : Store := { Store.empty with plans := some [rowAt "a" 1 (some Recurrence.sameDay)] }

/-- Its id is the only one. -/
theorem keyed_restless : restless.Keyed := List.nodup_singleton _

/-- What a claim at the second hour leaves of it. -/
def claimRestless : Store.Claimed := restless.taking restless.planRows (Stamp.ofHours 2).wall

/-- A claim at the second hour takes this plan. -/
theorem claim_restless : restless.claim 20 (.ofHours 2) none = .ok claimRestless := by
  have hdue : Store.dueRows restless.planRows 20 (Stamp.ofHours 2).wall none = restless.planRows := by
    rw [Store.dueRows_of_pairwise (by decide +kernel)]
    decide +kernel
  exact Store.claim_of_due keyed_restless rfl (by decide) (by decide) rfl (Store.instantOf_utc _) hdue
    (by decide)

/-- With a store that takes no write a run reports each of its plans, and says so of its claim if there is no
table. From a plan that is to be repeated on the same day it does not come back. -/
theorem lockedOnceClaimed_run :
    let dropped := withStore assorted { Store.empty with plans := none }
    (∃ s' report, run lockedOnceClaimed 20 none assorted = (s', some (.ok report)) ∧
      Accounts claimAtTwo.plans report) ∧
    run lockedOnceClaimed 20 none dropped =
      (dropped, some (.error (.claim (text
        "Could not claim due content plans: no such table: content_plans")))) ∧
    (run lockedOnceClaimed 20 none (withStore assorted restless)).2 = none := by
  intro dropped
  have hthere := @run_fails_iff_refused _ lockedOnceClaimed rfl assorted keyed_assorted _ rfl 20 none
  have hgone := @run_fails_iff_refused _ lockedOnceClaimed rfl dropped List.nodup_nil _ rfl 20 none
  have hstays := @run_fails_iff_refused _ lockedOnceClaimed rfl (withStore assorted restless)
    keyed_restless _ rfl 20 none
  have hreaches : Store.Reaches (Stamp.ofHours 2).wall none := fun _ h => nomatch h
  refine ⟨?_, (hgone.1 dropped _).mpr ⟨rfl, by decide, .tableMissing hreaches rfl⟩, ?_⟩
  · have htaken : assorted.claim 20 (.ofHours 2) none =
        (withStore assorted claimAtTwo.store, .ok claimAtTwo.plans) := by
      simp only [Stage.claim, claim_atTwo, withStore]
    obtain ⟨hnone, hreports, -⟩ := hthere.2.1 _ _ htaken
    have hback : (runPlans lockedOnceClaimed claimAtTwo.plans
        (withStore assorted claimAtTwo.store)).2.isSome = true := by decide +kernel
    rcases hrun : run lockedOnceClaimed 20 none assorted with ⟨s', _ | fault | report⟩
    · rw [runPlans_eq_none.mpr (hnone.mp (congrArg Prod.snd hrun))] at hback
      cases hback
    · obtain ⟨-, hlimit, hrefuses⟩ := (hthere.1 s' fault).mp hrun
      cases claim_atTwo.symm.trans (Store.claim_of_refuses keyed_assorted hlimit hrefuses)
    · exact ⟨s', report, rfl, hreports s' report hrun⟩
  · have htaken : (withStore assorted restless).claim 20 (.ofHours 2) none =
        (withStore assorted claimRestless.store, .ok claimRestless.plans) := by
      simp only [Stage.claim, withStore, claim_restless]
    have hsearch : (Recurrence.advance datesAtTwo (.ofHours 1) (some Recurrence.sameDay)
        (some (.ofHours 1))).toOption = some .endless := by decide +kernel
    obtain ⟨hnone, -⟩ := hstays.2.1 _ _ htaken
    exact hnone.mpr (.here rfl (toOption_eq_some.mp hsearch))

/-- A plan that is due at the second hour. -/
def dueAlone : Store :=
  ((Store.Operation.create (text "a") (Store.sampleDraft (.ofHours 1) none) (.ofHours 0)).perform
    Store.empty).1

/-- At the second hour neither a run that asks for more plans than 64 bits can count is orderly nor one
that takes over what was claimed three hours ago. A trigger lets their faults through. -/
theorem refusals_escape :
    let s := withStore assorted dueAlone
    (∃ entries, Store.Runs Store.empty entries dueAlone) ∧
    ¬Orderly s (run (Web.host secondHour) (2 ^ 63) none s) ∧
    ¬Orderly s (run (Web.host secondHour) 20 (some 10800000000) s) ∧
    tick (Web.host secondHour) (2 ^ 63) none s = (s, some (.error Store.tooLarge)) ∧
    tick (Web.host secondHour) 20 (some 10800000000) s = (s, some (.error Stamp.outOfRange)) := by
  intro s
  have hkeyed : s.studio.store.Keyed := by
    unfold Store.Keyed
    decide +kernel
  have hlarge : run (Web.host secondHour) (2 ^ 63) none s = (s, some (.error Store.tooLarge)) :=
    (run_error_iff hkeyed rfl rfl).mpr ⟨rfl, by decide, .limitTooLarge (fun _ h => nomatch h)
      (by decide +kernel) (Int.le_refl _)⟩
  have hearly : run (Web.host secondHour) 20 (some 10800000000) s =
      (s, some (.error Stamp.outOfRange)) :=
    (run_error_iff hkeyed rfl rfl).mpr ⟨rfl, by decide, .outOfCalendar fun h =>
      absurd (h _ rfl).1 (by decide +kernel)⟩
  rw [tick, tick, hlarge, hearly]
  exact ⟨⟨_, .cons _ (.nil _)⟩, id, id, rfl, rfl⟩

end Dispatch

end Showrunner
