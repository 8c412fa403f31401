import Mathlib.Data.Int.Interval
import Showrunner.Proofs.Web.Submissions

/-!
# Requests that overtake each other

A request to save the next version of a workflow looks the workflow up, makes the next version of what it
found, and writes that. Other requests may take their steps in between. The version of the workflow counts
the requests that were answered, and each of them has a version of its own, exactly if every write finds the
version that its request had looked up. A write that finds another one is lost on the count: from then on
two answers tell the same version, and what one of them had written is gone.
-/

namespace Showrunner

namespace Store

/-- The version under which a workflow is stored. -/
def version? (s : Store) (id : Text) : Option Int :=
  (s.workflows.bind (·.find? (·.id = id))).map (·.version)

variable {s s' : Store} {id : Text} {w w' : Workflow}

/-- A workflow that is found has the version under which it is stored. -/
theorem version?_of_getWorkflow (h : s.getWorkflow id = .ok (some w)) : s.version? id = some w.version := by
  obtain ⟨-, rows, r, hrows, hfind, hread⟩ := getWorkflow_some h
  rw [version?, hrows, Option.bind_some, hfind, Option.map_some, (toWorkflow_ok hread).1]

/-- A workflow that is updated is stored under its version. -/
theorem version?_updateWorkflow (hid : w.id = id) (h : s.updateWorkflow id w = .ok (s', some w')) :
    s'.version? id = some w.version := by
  obtain ⟨-, -, rows, updatedAt, -, -, ⟨r, hr, hrow⟩, rfl⟩ := updateWorkflow_some hid h
  obtain ⟨found, hfind⟩ : ∃ found, rows.find? (·.id = id) = some found :=
    Option.isSome_iff_exists.mp (List.find?_isSome.mpr ⟨r, hr, decide_eq_true hrow⟩)
  rw [version?, Option.bind_some]
  exact congrArg (Option.map (·.version))
    (find?_modify (f := fun r => .ofWorkflow w r.createdAt updatedAt) (fun _ => hid) hfind)

end Store

namespace Web

variable {σ : Type} {service : Service} {outer : Surroundings σ} {id : Text} {s : Stage σ}
  {submission : Workflow.Submission} {w : Workflow} {first most : Int}

/-- How far a request to save the next version of a workflow has come: nothing is done yet, it has looked
the workflow up, it has made the next version, or it has its result. -/
inductive Attempt
  | asked (submission : Workflow.Submission)
  | looked (submission : Workflow.Submission) (current : Workflow)
  | drafted (w : Workflow)
  | answered (result : Except Problem Workflow)

namespace Attempt

/-- One step of a request for a workflow. -/
def step (service : Service) (outer : Surroundings σ) (id : Text) (s : Stage σ) :
    Attempt → Stage σ × Attempt
  | .asked submission =>
      match (s.found (s.studio.store.getWorkflow id)).orMissing noWorkflow with
      | (s, .ok current) => (s, .looked submission current)
      | (s, .error problem) => (s, .answered (.error problem))
  | .looked submission current =>
      match recordOf service submission id (current.version + 1) (some current.createdAt)
          (outer.now s.outside) s with
      | (s, .ok w) => (s, .drafted w)
      | (s, .error problem) => (s, .answered (.error problem))
  | .drafted w =>
      let (s, result) :=
        (s.kept .fault (s.studio.keep (s.studio.store.updateWorkflow id w))).orMissing noWorkflow
      (s, .answered result)
  | .answered result => (s, .answered result)

/-- The version that a request was answered with. -/
def version? : Attempt → Option Int
  | .answered (.ok w) => some w.version
  | _ => none

/-- The response to a request that has its result. -/
def response? : Attempt → Option Response
  | .answered result => responseOf (result.map dumpWorkflow)
  | _ => none

end Attempt

/-- Requests for one workflow that are under way on a stage. -/
structure Race (σ : Type) where
  stage : Stage σ
  attempts : List Attempt

/-- What happens next: a request takes a step, or the outside changes. -/
inductive Happening (σ : Type)
  | step (i : Nat)
  | outside (outside : σ)

namespace Race

/-- What a race becomes when something happens. -/
def after (service : Service) (outer : Surroundings σ) (id : Text) (race : Race σ) :
    Happening σ → Race σ
  | .step i =>
      match race.attempts[i]? with
      | none => race
      | some attempt =>
          let (stage, attempt) := attempt.step service outer id race.stage
          ⟨stage, race.attempts.set i attempt⟩
  | .outside outside => { race with stage := { race.stage with outside := outside } }

/-- What a race becomes when one thing happens after another. -/
def run (service : Service) (outer : Surroundings σ) (id : Text) (race : Race σ)
    (happenings : List (Happening σ)) : Race σ := happenings.foldl (after service outer id) race

/-- The versions with which requests were answered. -/
def versions (race : Race σ) : List Int := race.attempts.filterMap Attempt.version?

/-- The version under which the workflow of a race is stored. -/
def stored? (race : Race σ) (id : Text) : Option Int := race.stage.studio.store.version? id

/-- A request writes over another version than the one that it had looked up. -/
def Overtaken (service : Service) (outer : Surroundings σ) (id : Text) (race : Race σ) :
    Happening σ → Prop
  | .step i => ∃ w w', race.attempts[i]? = some (.drafted w) ∧
      (Attempt.step service outer id race.stage (.drafted w)).2 = .answered (.ok w') ∧
      race.stored? id ≠ some (w.version - 1)
  | .outside _ => False

/-- Every write finds the version that its request had looked up. -/
def Orderly (service : Service) (outer : Surroundings σ) (id : Text) (race : Race σ) :
    List (Happening σ) → Prop
  | [] => True
  | happening :: rest =>
      ¬race.Overtaken service outer id happening ∧
        (race.after service outer id happening).Orderly service outer id rest

end Race

/-! ## A request by itself -/

/-- Three steps of a request in a row, with no other between them, are the update of its workflow. -/
theorem updateWorkflow_eq_steps (service : Service) (outer : Surroundings σ) (id : Text)
    (submission : Workflow.Submission) (s : Stage σ) :
    ∃ s' result,
      (fun now : Stage σ × Attempt => now.2.step service outer id now.1)^[3] (s, .asked submission) =
        (s', .answered result) ∧
      updateWorkflow service id submission (outer.now s.outside) s =
        (s', result.map dumpWorkflow) := by
  rw [updateWorkflow, Function.iterate_succ_apply, Function.iterate_succ_apply,
    Function.iterate_succ_apply, Function.iterate_zero_apply]
  dsimp only [Attempt.step]
  have hfound : ((s.found (s.studio.store.getWorkflow id)).orMissing noWorkflow).1 = s := rfl
  rcases hlook : (s.found (s.studio.store.getWorkflow id)).orMissing noWorkflow with ⟨s₁, problem | current⟩
  · exact ⟨s₁, .error problem, rfl, rfl⟩
  · obtain rfl : s₁ = s := by rw [hlook] at hfound; exact hfound
    dsimp only [Answer.andThen]
    rcases hmake : recordOf service submission id (current.version + 1) (some current.createdAt)
      (outer.now s₁.outside) s₁ with ⟨s₂, problem | w⟩
    · exact ⟨s₂, .error problem, rfl, rfl⟩
    · exact ⟨_, _, rfl, rfl⟩

/-- A request for the next version of a workflow is answered as its steps in a row are. -/
theorem answer_eq_steps {r : Request} (hread : r.submission? = some submission) (token : Text)
    (target : Target) (s : Stage σ) :
    ∃ s' result,
      (fun now : Stage σ × Attempt => now.2.step service outer id now.1)^[3] (s, .asked submission) =
        (s', .answered result) ∧
      answer service outer token r target s (.updateWorkflow id) = (s', result.map dumpWorkflow) := by
  rw [answer, submission?_iff_required.mp hread]
  exact updateWorkflow_eq_steps service outer id submission s

/-! ## What a step does -/

/-- The versions that a request has met lie between two bounds, and a next version is beyond the lower one
by one at least. A workflow that a request was answered with can be sent, and a problem has a status of
failure. -/
def Attempt.Within (service : Service) (id : Text) (first most : Int) : Attempt → Prop
  | .asked _ => True
  | .looked _ current => first ≤ current.version ∧ current.version ≤ most
  | .drafted w => w.id = id ∧ (∃ submission, Records service submission w) ∧
      first ≤ w.version - 1 ∧ w.version - 1 ≤ most
  | .answered (.ok w) => first < w.version ∧ w.version ≤ most ∧ Response.isSendable (dumpWorkflow w) = true
  | .answered (.error problem) => problem.Fails

/-- Bounds may be wider. -/
theorem Attempt.Within.mono {attempt : Attempt} {most' : Int} (h : attempt.Within service id first most)
    (hle : most ≤ most') : attempt.Within service id first most' := by
  match attempt, h with
  | .asked _, _ => trivial
  | .looked _ current, h => exact ⟨h.1, h.2.trans hle⟩
  | .drafted w, h => exact ⟨h.1, h.2.1, h.2.2.1, h.2.2.2.trans hle⟩
  | .answered (.ok w), h => exact ⟨h.1, h.2.1.trans hle, h.2.2⟩
  | .answered (.error _), h => exact h

/-- A request has a version exactly if its response says so. -/
theorem Attempt.Within.version?_isSome_iff {attempt : Attempt} (h : attempt.Within service id first most) :
    attempt.version?.isSome ↔
      ∃ response, attempt.response? = some response ∧ response.status = 200 ∧ response.canBeSent = true := by
  match attempt, h with
  | .asked _, _ | .looked _ _, _ | .drafted _, _ => exact ⟨fun h => (nomatch h), fun ⟨_, h, _⟩ => (nomatch h)⟩
  | .answered (.ok w), h => exact ⟨fun _ => ⟨_, rfl, rfl, h.2.2⟩, fun _ => rfl⟩
  | .answered (.error problem), h =>
    refine ⟨fun h => (nomatch h), ?_⟩
    rintro ⟨response, hresponse, hstatus, -⟩
    obtain ⟨failure, hfailure, hfails⟩ := h
    obtain rfl := Option.some.inj (hfailure.symm.trans hresponse)
    exact absurd (hfails.trans_eq hstatus) (by decide)

/-- A step leaves the store and the answer alone and stays within the bounds, or it writes the next version
and answers with it. -/
theorem Attempt.step_cases {attempt : Attempt} {stored : Int}
    (h : attempt.Within service id first most) (hstored : s.studio.store.version? id = some stored)
    (hfirst : first ≤ stored) (hmost : stored ≤ most) :
    ((attempt.step service outer id s).1.studio.store = s.studio.store ∧
      (attempt.step service outer id s).2.Within service id first most ∧
      (attempt.step service outer id s).2.version? = attempt.version?) ∨
    ∃ w, attempt = .drafted w ∧ (attempt.step service outer id s).2 = .answered (.ok w) ∧
      Response.isSendable (dumpWorkflow w) = true ∧
      (attempt.step service outer id s).1.studio.store.version? id = some w.version := by
  cases attempt with
  | asked submission =>
    dsimp only [step, Answer.orMissing, Stage.found]
    rcases hget : s.studio.store.getWorkflow id with fault | _ | current
    · exact .inl ⟨rfl, Problem.fails_fault fault, rfl⟩
    · exact .inl ⟨rfl, Problem.fails_refused (by decide) _, rfl⟩
    · obtain rfl := Option.some.inj (hstored.symm.trans (Store.version?_of_getWorkflow hget))
      exact .inl ⟨rfl, ⟨hfirst, hmost⟩, rfl⟩
  | looked submission current =>
    have hends := @ends_recordOf _ service s submission (outer.now s.outside) id (current.version + 1)
      (some current.createdAt)
    dsimp only [step]
    rcases hmake : recordOf service submission id (current.version + 1) (some current.createdAt)
      (outer.now s.outside) s with ⟨s₁, problem | w⟩
    · rw [hmake] at hends
      exact .inl ⟨(hends.problem rfl).1, (hends.problem rfl).2, rfl⟩
    · rw [hmake] at hends
      obtain ⟨hstore, hrecords, hid, hversion, -⟩ := hends.value rfl
      obtain ⟨hlow, hhigh⟩ := h
      exact .inl ⟨hstore, ⟨hid, ⟨submission, hrecords⟩, by omega, by omega⟩, rfl⟩
  | drafted w =>
    obtain ⟨hid, ⟨submission, hrecords⟩, -, -⟩ := h
    dsimp only [step, Answer.orMissing, Stage.kept, Studio.keep]
    rcases hupdate : s.studio.store.updateWorkflow id w with fault | ⟨store, _ | w'⟩
    · exact .inl ⟨rfl, Problem.fails_fault fault, rfl⟩
    · exact .inl ⟨Store.updateWorkflow_none hid hupdate, Problem.fails_refused (by decide) _, rfl⟩
    · obtain ⟨rfl, htakes, -⟩ := Store.updateWorkflow_some hid hupdate
      exact .inr ⟨w', rfl, rfl, hrecords.isSendable htakes, Store.version?_updateWorkflow hid hupdate⟩
  | answered result => exact .inl ⟨rfl, h, rfl⟩

/-! ## What happens to a race -/

/-- One request that changes without a new answer leaves the answers. -/
theorem versions_set {attempts : List Attempt} {i : Nat} {old new : Attempt}
    (hold : attempts[i]? = some old) (hsame : new.version? = old.version?) :
    (attempts.set i new).filterMap Attempt.version? = attempts.filterMap Attempt.version? := by
  obtain ⟨hi, rfl⟩ := List.getElem?_eq_some_iff.mp hold
  obtain ⟨before, behind, hsplit, -, hset⟩ := @List.exists_of_set _ _ new _ hi
  rw [hset]
  conv_rhs => rw [hsplit]
  simp only [List.filterMap_append, List.filterMap_cons, hsame]

/-- One request that is answered adds its version to the answers. -/
theorem versions_set_perm {attempts : List Attempt} {i : Nat} {old new : Attempt} {version : Int}
    (hold : attempts[i]? = some old) (hnone : old.version? = none) (hnew : new.version? = some version) :
    ((attempts.set i new).filterMap Attempt.version?).Perm
      (version :: attempts.filterMap Attempt.version?) := by
  obtain ⟨hi, rfl⟩ := List.getElem?_eq_some_iff.mp hold
  obtain ⟨before, behind, hsplit, -, hset⟩ := @List.exists_of_set _ _ new _ hi
  rw [hset]
  conv_rhs => rw [hsplit]
  simp only [List.filterMap_append, List.filterMap_cons, hnone, hnew]
  exact List.perm_middle

namespace Race

variable {race : Race σ} {happening : Happening σ}

/-- The workflow of a race is stored, and all versions that are around lie between two bounds. -/
structure Within (service : Service) (id : Text) (first most : Int) (race : Race σ) : Prop where
  stored : ∃ stored, race.stored? id = some stored ∧ first ≤ stored ∧ stored ≤ most
  attempts : ∀ attempt ∈ race.attempts, attempt.Within service id first most

/-- A request was answered with a version between the bounds. -/
theorem Within.of_mem_versions (h : race.Within service id first most) {version : Int}
    (hmem : version ∈ race.versions) : first < version ∧ version ≤ most := by
  obtain ⟨attempt, hattempt, hversion⟩ := List.mem_filterMap.mp hmem
  match attempt, h.attempts attempt hattempt, hversion with
  | .answered (.ok w), hwithin, hversion =>
    obtain rfl := Option.some.inj hversion
    exact ⟨hwithin.1, hwithin.2.1⟩

/-- Nothing has overtaken anything: the stored version counts the answers, which are distinct, and nothing
is beyond it. -/
structure Counted (service : Service) (id : Text) (first : Int) (race : Race σ) : Prop where
  within : race.Within service id first (first + race.versions.length)
  stored : race.stored? id = some (first + race.versions.length)
  distinct : race.versions.Nodup

/-- Something was overtaken: all versions that are around fall short of the number of the answers. -/
def Behind (service : Service) (id : Text) (first : Int) (race : Race σ) : Prop :=
  ∃ most, race.Within service id first most ∧ most < first + race.versions.length

/-- What happens leaves the stored version and the answers alone, or it is a write, which stores its version
and answers with it. -/
theorem Within.after_cases (h : race.Within service id first most) (happening : Happening σ) :
    ((race.after service outer id happening).Within service id first most ∧
      (race.after service outer id happening).versions = race.versions ∧
      (race.after service outer id happening).stored? id = race.stored? id ∧
      ¬race.Overtaken service outer id happening) ∨
    ∃ version, first ≤ version - 1 ∧ version - 1 ≤ most ∧
      (race.after service outer id happening).stored? id = some version ∧
      (race.after service outer id happening).versions.Perm (version :: race.versions) ∧
      (race.Overtaken service outer id happening ↔ race.stored? id ≠ some (version - 1)) ∧
      ∀ most', most ≤ most' → version ≤ most' →
        (race.after service outer id happening).Within service id first most' := by
  obtain ⟨⟨stored, hstored, hfirst, hmost⟩, hattempts⟩ := h
  cases happening with
  | outside outside => exact .inl ⟨⟨⟨stored, hstored, hfirst, hmost⟩, hattempts⟩, rfl, rfl, not_false⟩
  | step i =>
    cases hi : race.attempts[i]? with
    | none =>
      have hsame : race.after service outer id (.step i) = race := by rw [after, hi]
      rw [hsame]
      refine .inl ⟨⟨⟨stored, hstored, hfirst, hmost⟩, hattempts⟩, rfl, rfl, ?_⟩
      rintro ⟨w, w', hw, -⟩
      rw [hi] at hw
      cases hw
    | some attempt =>
      have hafter : race.after service outer id (.step i) =
          ⟨(attempt.step service outer id race.stage).1,
            race.attempts.set i (attempt.step service outer id race.stage).2⟩ := by rw [after, hi]
      have hattempt := hattempts attempt (List.mem_of_getElem? hi)
      rw [hafter]
      rcases @Attempt.step_cases _ _ outer _ _ _ _ _ _ hattempt hstored hfirst hmost with
        ⟨hstore, hwithin, hversion⟩ | ⟨w, rfl, hanswer, hsendable, hwritten⟩
      · have hkept : (attempt.step service outer id race.stage).1.studio.store.version? id = some stored :=
          (congrArg (Store.version? · id) hstore).trans hstored
        refine .inl ⟨⟨⟨stored, hkept, hfirst, hmost⟩, fun other hother => ?_⟩, versions_set hi hversion,
          hkept.trans hstored.symm, ?_⟩
        · rcases List.mem_or_eq_of_mem_set hother with hold | rfl
          · exact hattempts other hold
          · exact hwithin
        · rintro ⟨w, w', hw, hanswer, -⟩
          obtain rfl := Option.some.inj (hi.symm.trans hw)
          rw [hanswer] at hversion
          cases hversion
      · obtain ⟨-, -, hlow, hhigh⟩ := hattempt
        refine .inr ⟨w.version, hlow, hhigh, hwritten, ?_, ⟨?_, fun hne => ⟨w, w, hi, hanswer, hne⟩⟩,
          fun most' hle hversion => ⟨⟨w.version, hwritten, by omega, hversion⟩, fun other hother => ?_⟩⟩
        · exact versions_set_perm hi rfl (by rw [hanswer]; rfl)
        · rintro ⟨w', -, hw, -, hne⟩
          obtain rfl := Attempt.drafted.inj (Option.some.inj (hi.symm.trans hw))
          exact hne
        · rcases List.mem_or_eq_of_mem_set hother with hold | rfl
          · exact (hattempts other hold).mono hle
          · rw [hanswer]
            exact ⟨by omega, hversion, hsendable⟩

/-- Nothing is overtaken: the answers are counted on. -/
theorem Counted.after (h : race.Counted service id first)
    (hfair : ¬race.Overtaken service outer id happening) :
    (race.after service outer id happening).Counted service id first := by
  rcases @Within.after_cases _ _ outer _ _ _ _ h.within happening with
    ⟨hwithin, hversions, hstored, -⟩ | ⟨version, -, -, hstored, hversions, hovertaken, hbounds⟩
  · refine ⟨?_, ?_, ?_⟩ <;> rw [hversions]
    exacts [hwithin, hstored.trans h.stored, h.distinct]
  · have hnext : version = first + race.versions.length + 1 := by
      have := Option.some.inj (h.stored.symm.trans (not_not.mp (mt hovertaken.mpr hfair)))
      omega
    have hlength : (race.after service outer id happening).versions.length = race.versions.length + 1 :=
      hversions.length_eq
    refine ⟨?_, ?_, ?_⟩
    · exact hbounds _ (by omega) (by omega)
    · rw [hstored, hnext, hlength, Nat.cast_succ, add_assoc]
    · refine hversions.nodup_iff.mpr (List.nodup_cons.mpr ⟨fun hmem => ?_, h.distinct⟩)
      have := (h.within.of_mem_versions hmem).2
      omega

/-- Something is overtaken: the versions fall behind the answers. -/
theorem Counted.behind (h : race.Counted service id first)
    (hovertaken : race.Overtaken service outer id happening) :
    (race.after service outer id happening).Behind service id first := by
  rcases @Within.after_cases _ _ outer _ _ _ _ h.within happening with
    ⟨-, -, -, hfair⟩ | ⟨version, -, hhigh, -, hversions, hiff, hbounds⟩
  · exact absurd hovertaken hfair
  · have hne := hiff.mp hovertaken
    rw [h.stored] at hne
    have hlength : (race.after service outer id happening).versions.length = race.versions.length + 1 :=
      hversions.length_eq
    have hlt : version - 1 ≠ first + race.versions.length := fun heq => hne (congrArg some heq.symm)
    exact ⟨first + race.versions.length, hbounds _ (le_refl _) (by omega), by omega⟩

/-- Versions that have fallen behind the answers stay behind. -/
theorem Behind.after (h : race.Behind service id first) (happening : Happening σ) :
    (race.after service outer id happening).Behind service id first := by
  obtain ⟨most, hwithin, hlt⟩ := h
  rcases @Within.after_cases _ _ outer _ _ _ _ hwithin happening with
    ⟨hafter, hversions, -, -⟩ | ⟨version, -, hhigh, -, hversions, -, hbounds⟩
  · exact ⟨most, hafter, hversions ▸ hlt⟩
  · have hlength : (race.after service outer id happening).versions.length = race.versions.length + 1 :=
      hversions.length_eq
    exact ⟨most + 1, hbounds _ (by omega) (by omega), by omega⟩

/-- Whatever happens, versions that have fallen behind the answers stay behind. -/
theorem Behind.run (h : race.Behind service id first) (happenings : List (Happening σ)) :
    (race.run service outer id happenings).Behind service id first := by
  induction happenings generalizing race with
  | nil => exact h
  | cons happening rest ih => exact ih (h.after happening)

/-- Whatever happens, the answers are counted if every write is in order, and fall behind if one is not. -/
theorem Counted.run (h : race.Counted service id first) (happenings : List (Happening σ)) :
    (race.Orderly service outer id happenings ∧
      (race.run service outer id happenings).Counted service id first) ∨
    (¬race.Orderly service outer id happenings ∧
      (race.run service outer id happenings).Behind service id first) := by
  induction happenings generalizing race with
  | nil => exact .inl ⟨trivial, h⟩
  | cons happening rest ih =>
    by_cases hovertaken : race.Overtaken service outer id happening
    · exact .inr ⟨fun horderly => horderly.1 hovertaken, (h.behind hovertaken).run rest⟩
    · rcases ih (h.after hovertaken) with ⟨horderly, hcounted⟩ | ⟨hdisorderly, hbehind⟩
      · exact .inl ⟨⟨hovertaken, horderly⟩, hcounted⟩
      · exact .inr ⟨fun horderly => hdisorderly horderly.2, hbehind⟩

/-- Distinct versions between two bounds are no more than fit between them. -/
theorem Within.length_le (h : race.Within service id first most) (hdistinct : race.versions.Nodup) :
    first + race.versions.length ≤ most := by
  obtain ⟨stored, -, hfirst, hmost⟩ := h.stored
  have hsubset : race.versions.toFinset ⊆ Finset.Ioc first most := fun version hmem =>
    Finset.mem_Ioc.mpr (h.of_mem_versions (List.mem_toFinset.mp hmem))
  have hcard := Finset.card_le_card hsubset
  rw [List.toFinset_card_of_nodup hdistinct, Int.card_Ioc] at hcard
  omega

/-- A race in which nothing was answered is counted. -/
theorem counted_of_asked (hasked : ∀ attempt ∈ race.attempts, ∃ submission, attempt = .asked submission)
    (hstored : race.stored? id = some first) : race.Counted service id first := by
  have hnone : race.versions = [] := by
    refine List.filterMap_eq_nil_iff.mpr fun attempt hattempt => ?_
    obtain ⟨submission, rfl⟩ := hasked attempt hattempt
    rfl
  refine ⟨⟨⟨first, hstored, le_refl _, by omega⟩, fun attempt hattempt => ?_⟩, ?_, ?_⟩
  · obtain ⟨submission, rfl⟩ := hasked attempt hattempt
    exact trivial
  · rw [hnone, List.length_nil, Nat.cast_zero, add_zero, hstored]
  · rw [hnone]
    exact List.nodup_nil

end Race

/-! ## What the versions tell -/

/-- However the steps of any number of requests for a stored workflow follow each other, the version of the
workflow has grown by no more than the number of the requests that succeeded. It has grown by that number,
and no two of them were answered with the same version, exactly if every write found the version that its
request had looked up. -/
theorem versions_distinct_iff_orderly (service : Service) (outer : Surroundings σ) {race : Race σ}
    (hasked : ∀ attempt ∈ race.attempts, ∃ submission, attempt = .asked submission)
    (hstored : race.stored? id = some first) (happenings : List (Happening σ)) :
    let ended := race.run service outer id happenings
    let successes := ended.versions.length
    (∀ attempt ∈ ended.attempts, attempt.version?.isSome ↔ ∃ response,
      attempt.response? = some response ∧ response.status = 200 ∧ response.canBeSent = true) ∧
    (∀ version ∈ ended.versions, first < version ∧ version ≤ first + successes) ∧
    ∃ stored, ended.stored? id = some stored ∧ first ≤ stored ∧ stored ≤ first + successes ∧
      (race.Orderly service outer id happenings ↔ stored = first + successes) ∧
      (race.Orderly service outer id happenings ↔ ended.versions.Nodup) := by
  intro ended successes
  -- Versions that are counted are distinct; those that fall behind are too few to be distinct.
  rcases (Race.counted_of_asked hasked hstored).run happenings with
    ⟨horderly, hcounted⟩ | ⟨hdisorderly, most, hwithin, hlt⟩
  · refine ⟨fun attempt hattempt => (hcounted.within.attempts attempt hattempt).version?_isSome_iff,
      fun version hversion => hcounted.within.of_mem_versions hversion,
      first + successes, hcounted.stored, by omega, le_refl _, ?_, ?_⟩
    · exact ⟨fun _ => rfl, fun _ => horderly⟩
    · exact ⟨fun _ => hcounted.distinct, fun _ => horderly⟩
  · change most < first + successes at hlt
    obtain ⟨stored, hended, hfirst, hmost⟩ := hwithin.stored
    refine ⟨fun attempt hattempt => (hwithin.attempts attempt hattempt).version?_isSome_iff,
      fun version hversion => ?_, stored, hended, hfirst, by omega, ?_, ?_⟩
    · obtain ⟨hlow, hhigh⟩ := hwithin.of_mem_versions hversion
      exact ⟨hlow, by omega⟩
    · exact ⟨fun horderly => absurd horderly hdisorderly, fun heq => by omega⟩
    · refine ⟨fun horderly => absurd horderly hdisorderly, fun hdistinct => ?_⟩
      have hle : first + successes ≤ most := hwithin.length_le hdistinct
      omega

/-- A stage with a workflow. -/
def withWorkflow : Stage Nat :=
  (handle sampleService Dispatch.secondHour [] (boardRequest "POST" "/workflows" endlessSwitch)
    ⟨sampleService.newStudio, 0⟩).1

/-- Two requests for the next version of the workflow. -/
def twoSavings : Race Nat :=
  ⟨withWorkflow, ([boardRequest "PUT" "/workflows/wf-1" endlessSwitch,
    boardRequest "PUT" "/workflows/wf-1" endlessSwitch].filterMap Request.submission?).map .asked⟩

/-- The requests take their steps in turns. -/
def inTurns (turns : List Nat) : Race Nat :=
  twoSavings.run sampleService Dispatch.secondHour (text "wf-1") (turns.map .step)

/-- The requests ask for the next version of the workflow, and nothing else is done yet. -/
theorem asked_twoSavings : ∀ attempt ∈ twoSavings.attempts, ∃ submission, attempt = .asked submission := by
  intro attempt hattempt
  obtain ⟨submission, -, rfl⟩ := List.mem_map.mp hattempt
  exact ⟨submission, rfl⟩

/-- One request after the other makes two versions, which are distinct, so every write finds the version
that its request had looked up. -/
theorem twoSavings_in_order :
    twoSavings.attempts.length = 2 ∧ twoSavings.stored? (text "wf-1") = some 1 ∧
    (inTurns [0, 0, 0, 1, 1, 1]).versions = [2, 3] ∧
    (inTurns [0, 0, 0, 1, 1, 1]).stored? (text "wf-1") = some 3 ∧
    twoSavings.Orderly sampleService Dispatch.secondHour (text "wf-1")
      ([0, 0, 0, 1, 1, 1].map .step) := by
  have hrun : twoSavings.attempts.length = 2 ∧ twoSavings.stored? (text "wf-1") = some 1 ∧
      (inTurns [0, 0, 0, 1, 1, 1]).versions = [2, 3] ∧
      (inTurns [0, 0, 0, 1, 1, 1]).stored? (text "wf-1") = some 3 := by decide +kernel
  obtain ⟨hlength, hstored, hversions, hended⟩ := hrun
  obtain ⟨-, -, stored, -, -, -, -, hdistinct⟩ := versions_distinct_iff_orderly sampleService
    Dispatch.secondHour asked_twoSavings hstored ([0, 0, 0, 1, 1, 1].map .step)
  refine ⟨hlength, hstored, hversions, hended, hdistinct.mpr ?_⟩
  rw [inTurns] at hversions
  rw [hversions]
  decide

/-- Two requests that look the workflow up before either writes are both answered with the second version,
and the second version is stored: two succeeded, and the version has grown by one. -/
theorem twoSavings_overtaken :
    (∀ attempt ∈ twoSavings.attempts, ∃ submission, attempt = .asked submission) ∧
    twoSavings.stored? (text "wf-1") = some 1 ∧
    (inTurns [0, 1, 0, 1, 0, 1]).attempts.map (fun attempt =>
      (attempt.response?.map fun response => (response.status, response.canBeSent), attempt.version?)) =
        [(some (200, true), some 2), (some (200, true), some 2)] ∧
    (inTurns [0, 1, 0, 1, 0, 1]).stored? (text "wf-1") = some 2 :=
  ⟨asked_twoSavings, by decide +kernel⟩

end Web

end Showrunner
