import Mathlib.Algebra.Group.Int.Defs
import Showrunner.Proofs.Store.Lifecycle

/-!
# No plan is lost

From wherever operations lead a plan there is a way back into dispatch. A scheduled plan whose start
has come is returned by a claim whose limit leaves room for every plan, and so is a plan that has been
processing since the staleness limit or before; a plan that failed or was completed goes back on the
schedule by request. A claim needs a limit that fits into 64 bits and a time whose reading in universal
time lies in the calendar, and nothing else stands between it and such a plan.

That a plan which is being processed can be taken over rests on its row saying since when; that a
request finds its plan rests on the table being there and on ids that can be written.
-/

namespace Showrunner

namespace Store

/-- The plan table is there, and each of its ids can be written. -/
structure Ready (s : Store) : Prop where
  table : ∃ rows, s.plans = some rows
  ids : ∀ id ∈ s.planRows.map PlanRow.id, encodable [id] = .ok ()

/-- A claim succeeds and returns a plan. -/
def Claims (s : Store) (limit : Int) (now : Stamp) (staleAfter : Option Int) (id : Text) : Prop :=
  ∃ claimed, s.claim limit now staleAfter = .ok claimed ∧ id ∈ claimed.plans.map Plan.id

/-- The first of texts that can be written can be written. -/
theorem encodable_head {t : Text} {rest : List Text} (h : encodable (t :: rest) = .ok ()) :
    encodable [t] = .ok () := by
  rw [encodable] at h ⊢
  split at h
  · cases h
  · rfl

/-- A stamp has a reading in universal time if its instant lies in the calendar. -/
theorem exists_instantOf {t : Stamp} :
    (∃ w, instantOf t = .ok w) ↔ 0 ≤ t.instant ∧ t.instant < wallCount := by
  constructor
  · rintro ⟨w, hw⟩
    have hval := instantOf_ok hw
    have hlt := w.isLt
    omega
  · intro h
    obtain ⟨w, -, hutc⟩ := Stamp.exists_toUtc h.1 h.2
    refine ⟨w, ?_⟩
    rw [instantOf, hutc]
    rfl

/-! ## The table stays ready -/

/-- A new store is ready. -/
theorem ready_empty : empty.Ready := ⟨⟨[], rfl⟩, fun _ h => nomatch h⟩

/-- A plan is created in a table that is there, under an id that can be written. -/
theorem createPlan_ready {s s' : Store} {id : Text} {draft : Plan.Draft} {now : Stamp} {p : Plan}
    (h : s.createPlan id draft now = .ok (s', p)) :
    (∃ rows, s'.plans = some rows) ∧ encodable [id] = .ok () := by
  unfold createPlan at h
  simp only [bind_eq_ok] at h
  obtain ⟨_, -, _, -, rows, -, _, hencodable, h⟩ := h
  refine ⟨?_, encodable_head hencodable⟩
  split at h
  · obtain ⟨_, hfail, -⟩ := bind_eq_ok.mp h
    cases hfail
  · cases h
    exact ⟨_, rfl⟩

/-- Every change of the table leaves it ready. -/
theorem TableChange.ready {s s' : Store} {entry : Entry} (h : TableChange s entry s')
    (hs : s.Ready) : s'.Ready := by
  cases h with
  | rewritten _ hg hs' =>
    obtain ⟨⟨rows, hrows⟩, hids⟩ := hs
    have hkept : PlanRow.id ∘ _ = PlanRow.id := funext fun r => congrArg Origin.id (hg r)
    refine ⟨⟨_, by rw [hs', mapRows, hrows, Option.map_some]⟩, ?_⟩
    rwa [hs', planRows_mapRows, List.map_map, hkept]
  | added hcreate =>
    obtain ⟨htable, hid⟩ := createPlan_ready hcreate
    obtain ⟨_, _, -, -, -, hrows, -⟩ := createPlan_ok hcreate
    refine ⟨htable, fun other hother => ?_⟩
    rw [hrows, List.map_append, List.mem_append] at hother
    rcases hother with hold | hnew
    · exact hs.ids other hold
    · obtain rfl := List.mem_singleton.mp hnew
      exact hid

/-- Every run leaves the table ready. -/
theorem ready_runs {s s' : Store} {entries : List Entry} (hs : s.Ready) (h : Runs s entries s') :
    s'.Ready := by
  induction h with
  | nil s => exact hs
  | cons op _ ih => exact ih ((tableChange_perform _ op).ready hs)

/-! ## Claims with room for every plan -/

/-- A limit that leaves room for every row cuts off no row that is due. -/
theorem dueRows_of_room {rows : List PlanRow} {limit : Nat} (hroom : rows.length ≤ limit) (now : Wall)
    (before : Option Wall) : (dueRows rows limit now before).Perm (rows.filter (PlanRow.isDue now before)) := by
  have hlength : ((rows.filter (PlanRow.isDue now before)).mergeSort PlanRow.comesFirst).length ≤
      limit := by
    rw [List.length_mergeSort]
    exact Nat.le_trans (List.length_filter_le _ _) hroom
  rw [dueRows, List.take_of_length_le hlength]
  exact List.mergeSort_perm _ _

/-- With such a limit each row that is due is claimed. -/
theorem mem_dueRows_of_room {rows : List PlanRow} {limit : Nat} {now : Wall} {before : Option Wall}
    {r : PlanRow} (hroom : rows.length ≤ limit) (hr : r ∈ rows) (hdue : r.isDue now before = true) :
    r ∈ dueRows rows limit now before :=
  (dueRows_of_room hroom now before).mem_iff.mpr (List.mem_filter.mpr ⟨hr, hdue⟩)

/-- With such a limit as many rows are claimed as are due. -/
theorem length_dueRows_of_room {rows : List PlanRow} {limit : Nat} {now : Wall} {before : Option Wall}
    (hroom : rows.length ≤ limit) :
    (dueRows rows limit now before).length = rows.countP (PlanRow.isDue now before) := by
  rw [(dueRows_of_room hroom now before).length_eq, List.countP_eq_length_filter]

/-- A claim of anything has a limit of 64 bits and a time with a reading in universal time. -/
theorem claim_limits {s : Store} {limit : Int} {now : Stamp} {staleAfter : Option Int}
    {claimed : Claimed} (hlimit : 0 < limit) (h : s.claim limit now staleAfter = .ok claimed) :
    limit < 2 ^ 63 ∧ ∃ time, instantOf now = .ok time := by
  obtain ⟨_, time, _, -, htime, -, hsmall⟩ := claim_reads hlimit h
  exact ⟨hsmall, time, htime⟩

/-- At most as many plans are due at a time as a statement has variables. -/
def DueFit (s : Store) (now : Stamp) (staleAfter : Option Int) : Prop :=
  ∀ time before, instantOf now = .ok time → staleBefore now staleAfter = .ok before →
    s.planRows.countP (PlanRow.isDue time before) ≤ variableLimit

/-- No more plans are due than there are. -/
theorem dueFit_of_length {s : Store} (h : s.planRows.length ≤ variableLimit) (now : Stamp)
    (staleAfter : Option Int) : s.DueFit now staleAfter :=
  fun _ _ _ _ => Nat.le_trans List.countP_le_length h

/-- Among claims with room for every plan, those with a limit of 64 bits, a time with a reading in
universal time and no more due plans than a statement has variables return a plan that is due. -/
theorem claims_iff {s : Store} (hs : s.Ready) (hkeyed : s.Keyed) {r : PlanRow} (hr : r ∈ s.planRows)
    {limit : Int} {now : Stamp} {staleAfter : Option Int} (hroom : (s.planRows.length : Int) ≤ limit)
    (hnow : 0 ≤ now.instant)
    (hdue : ∀ time, instantOf now = .ok time →
      ∃ before, staleBefore now staleAfter = .ok before ∧ r.isDue time before = true) :
    s.Claims limit now staleAfter r.id ↔
      limit < 2 ^ 63 ∧ now.instant < wallCount ∧ s.DueFit now staleAfter := by
  obtain ⟨rows, hrows⟩ := hs.table
  have htable := planRows_of_some hrows
  have hpositive := List.length_pos_of_mem hr
  have hlimit : 0 < limit := by omega
  constructor
  · rintro ⟨claimed, hclaim, -⟩
    obtain ⟨hsmall, htime⟩ := claim_limits hlimit hclaim
    refine ⟨hsmall, (exists_instantOf.mp htime).2, fun time before htime hbefore => ?_⟩
    rw [claim_eq hkeyed hrows hlimit hsmall hbefore htime] at hclaim
    split at hclaim
    · cases hclaim
    · next hfew =>
      rw [htable] at hroom ⊢
      rw [length_dueRows_of_room (by omega)] at hfew
      omega
  · rintro ⟨hsmall, hlast, hfit⟩
    obtain ⟨time, htime⟩ := exists_instantOf.mpr ⟨hnow, hlast⟩
    obtain ⟨before, hbefore, hdue⟩ := hdue time htime
    have hfew := hfit time before htime hbefore
    rw [htable] at hr hroom hfew
    refine ⟨s.taking (dueRows rows limit.toNat time before) time, ?_, ?_⟩
    · rw [claim_eq hkeyed hrows hlimit hsmall hbefore htime, if_neg]
      rw [length_dueRows_of_room (by omega)]
      omega
    · have hmem : r ∈ dueRows rows limit.toNat time before :=
        mem_dueRows_of_room (by omega) hr hdue
      rw [ids_taking]
      exact List.mem_map_of_mem hmem

/-- A scheduled plan is due once its start has come. -/
theorem isDue_of_scheduled {r : PlanRow} {time : Wall} {before : Option Wall}
    (hscheduled : r.status = .scheduled) (hstart : r.startsAt ≤ time) :
    r.isDue time before = true := by
  simp [PlanRow.isDue, hscheduled, hstart]

/-- A plan that is being processed is due once it has been for as long as the staleness limit. -/
theorem isDue_of_stale {r : PlanRow} {time before claimedAt : Wall}
    (hprocessing : r.status = .processing) (hclaimed : r.claimedAt = some claimedAt)
    (hstale : claimedAt ≤ before) : r.isDue time (some before) = true := by
  simp [PlanRow.isDue, hprocessing, hclaimed, hstale]

/-- The staleness limit is where the time of the claim is moved back to. -/
theorem staleBefore_of_add {now cutoff : Stamp} {duration : Int} {before : Wall} (hne : duration ≠ 0)
    (hcutoff : now.add (-duration) = .ok cutoff) (hbefore : instantOf cutoff = .ok before) :
    staleBefore now (some duration) = .ok (some before) := by
  simp only [staleBefore, if_neg hne, hcutoff, hbefore, bind, Except.bind, pure, Except.pure]

/-! ## Requests to put a plan back on the schedule -/

/-- A request to put a plan back on the schedule succeeds where a plan can be looked up. -/
theorem exists_requeuePlan {s : Store} {rows : List PlanRow} {id : Text} {startsAt : Option Stamp}
    {start : Option Wall} (hrows : s.plans = some rows) (hid : encodable [id] = .ok ())
    (hstart : instantOf? startsAt = .ok start) :
    ∃ s' result, s.requeuePlan id startsAt = .ok (s', result) := by
  rw [requeuePlan, hstart, hrows]
  simp only [rowsOf, hid, bind, Except.bind, pure, Except.pure]
  split
  · exact ⟨_, _, rfl⟩
  · exact ⟨_, _, rfl⟩

/-- A plan that failed or was completed is put back on the schedule by request. -/
theorem requeuePlan_of_requeueable {s : Store} (hs : s.Ready) (hkeyed : s.Keyed) {r : PlanRow}
    (hr : r ∈ s.planRows) (hstatus : r.status.isRequeueable = true) {startsAt : Option Stamp}
    {start : Option Wall} (hstart : instantOf? startsAt = .ok start) :
    ∃ s', s.requeuePlan r.id startsAt = .ok (s', some (r.requeue start).toPlan) ∧
      s'.row? r.id = some (r.requeue start) := by
  obtain ⟨rows, hrows⟩ := hs.table
  obtain ⟨s', result, h⟩ := exists_requeuePlan hrows (hs.ids r.id (List.mem_map_of_mem hr)) hstart
  obtain ⟨start', hstart', hstore, hresult⟩ := requeuePlan_ok h
  obtain rfl := Except.ok.inj (hstart'.symm.trans hstart)
  have hrow : s'.row? r.id = some (r.requeue start') := by
    rw [hstore, row?_mapRows s (fun r => by split <;> rfl), row?_of_mem hkeyed hr]
    exact congrArg some (if_pos ⟨rfl, hstatus⟩)
  have happlies : s.planRows.any (fun r' => r'.id = r.id ∧ r'.status.isRequeueable = true) = true :=
    List.any_eq_true.mpr ⟨r, hr, by simpa using hstatus⟩
  rw [if_pos happlies, hrow, Option.map_some] at hresult
  exact ⟨s', hresult ▸ h, hrow⟩

/-! ## Every plan can come back -/

/-- In every store that a run of operations leads to, each plan can come back into dispatch. A claim
that leaves room for every plan, at a time when a scheduled plan's start has come, returns that plan
exactly if its limit fits into 64 bits, its time has a reading in universal time, and no more plans are due
than a statement has variables; so does one with a staleness limit at or after the time since when a plan is
being processed, which its row says. A plan that failed or was completed is scheduled by request. -/
theorem no_plan_lost {s : Store} {entries : List Entry} (hrun : Runs empty entries s) {r : PlanRow}
    (hr : r ∈ s.planRows) :
    (r.status = .scheduled → ∀ limit now staleAfter, (s.planRows.length : Int) ≤ limit →
      (r.startsAt.val : Int) ≤ now.instant → (∃ before, staleBefore now staleAfter = .ok before) →
      (s.Claims limit now staleAfter r.id ↔
        limit < 2 ^ 63 ∧ now.instant < wallCount ∧ s.DueFit now staleAfter)) ∧
    (r.status = .processing → ∃ claimedAt, r.claimedAt = some claimedAt ∧
      ∀ limit now duration cutoff, (s.planRows.length : Int) ≤ limit → 0 < duration →
        now.add (-duration) = .ok cutoff → (claimedAt.val : Int) ≤ cutoff.instant →
        (s.Claims limit now (some duration) r.id ↔
          limit < 2 ^ 63 ∧ now.instant < wallCount ∧ s.DueFit now (some duration))) ∧
    (r.status = .failed ∨ r.status = .completed →
      ∀ startsAt start, instantOf? startsAt = .ok start →
        ∃ s' p r', s.requeuePlan r.id startsAt = .ok (s', some p) ∧ p.id = r.id ∧
          p.status = .scheduled ∧ s'.row? r.id = some r' ∧ r'.status = .scheduled) := by
  have hready : s.Ready := ready_runs ready_empty hrun
  have hkeyed : s.Keyed := keyed_runs keyed_empty hrun
  refine ⟨fun hscheduled limit now staleAfter hroom hstart ⟨before, hbefore⟩ => ?_,
    fun hprocessing => ?_, fun hstatus startsAt start hstart => ?_⟩
  · refine claims_iff hready hkeyed hr hroom (by omega) fun time htime => ⟨before, hbefore, ?_⟩
    have hval := instantOf_ok htime
    exact isDue_of_scheduled hscheduled (Fin.le_def.mpr (by omega))
  · -- the row of a plan that is being processed says since when
    have hcoherent : r.Coherent := coherent_runs keyed_empty (fun _ h => nomatch h) hrun r hr
    obtain ⟨claimedAt, hclaimed⟩ := Option.isSome_iff_exists.mp (hcoherent.claimed.mpr hprocessing)
    refine ⟨claimedAt, hclaimed, fun limit now duration cutoff hroom hduration hcutoff hstale => ?_⟩
    have hback := Stamp.add_ok hcutoff
    refine claims_iff hready hkeyed hr hroom (by omega) fun time htime => ?_
    obtain ⟨hfirst, hlast⟩ := exists_instantOf.mp ⟨time, htime⟩
    -- the staleness limit lies between two instants of the calendar
    obtain ⟨before, hbefore⟩ := exists_instantOf.mpr
      (show 0 ≤ cutoff.instant ∧ cutoff.instant < wallCount by omega)
    have hval := instantOf_ok hbefore
    exact ⟨some before, staleBefore_of_add (by omega) hcutoff hbefore,
      isDue_of_stale hprocessing hclaimed (Fin.le_def.mpr (by omega))⟩
  · have hrequeueable : r.status.isRequeueable = true := by
      rcases hstatus with h | h <;> rw [h] <;> rfl
    obtain ⟨s', hrequeue, hrow⟩ := requeuePlan_of_requeueable hready hkeyed hr hrequeueable hstart
    exact ⟨s', _, _, hrequeue, rfl, rfl, hrow, rfl⟩

/-- A plan that failed, one that has been processing since the third hour, and one that is scheduled. -/
def stranded : List Operation :=
  let draft := sampleDraft (.ofHours 1) none
  [.create (text "a") draft (.ofHours 0), .claim 20 (.ofHours 2) none,
    .fail (text "a") (text "no reply") (.ofHours 2), .create (text "b") draft (.ofHours 2),
    .claim 20 (.ofHours 3) none, .create (text "c") draft (.ofHours 3)]

/-- An hour later each of them comes back. -/
theorem stranded_come_back :
    let s := stranded.foldl (fun s op => (op.perform s).1) empty
    s.Claims 3 (.ofHours 4) none (text "c") ∧
    s.Claims 3 (.ofHours 4) (some 3600000000) (text "b") ∧
    ∃ s' p r', s.requeuePlan (text "a") none = .ok (s', some p) ∧ p.id = text "a" ∧
      p.status = .scheduled ∧ s'.row? (text "a") = some r' ∧ r'.status = .scheduled := by
  intro s
  let draft := sampleDraft (.ofHours 1) none
  have hrun : ∃ entries, Runs empty entries s :=
    ⟨_, .cons (.create (text "a") draft (.ofHours 0)) (.cons (.claim 20 (.ofHours 2) none)
      (.cons (.fail (text "a") (text "no reply") (.ofHours 2))
        (.cons (.create (text "b") draft (.ofHours 2)) (.cons (.claim 20 (.ofHours 3) none)
          (.cons (.create (text "c") draft (.ofHours 3)) (.nil _))))))⟩
  obtain ⟨entries, hrun⟩ := hrun
  have hroom : (s.planRows.length : Int) ≤ 3 := by decide +kernel
  have hfit : ∀ now staleAfter, s.DueFit now staleAfter :=
    dueFit_of_length (Nat.le_trans (Int.ofNat_le.mp hroom) (by decide))
  obtain ⟨a, ha, haid, hfailed⟩ : ∃ r ∈ s.planRows, r.id = text "a" ∧ r.status = .failed := by
    decide +kernel
  obtain ⟨b, hb, hbid, hprocessing, hsince⟩ : ∃ r ∈ s.planRows, r.id = text "b" ∧
      r.status = .processing ∧ r.claimedAt = some (Stamp.ofHours 3).wall := by decide +kernel
  obtain ⟨c, hc, hcid, hscheduled, hstart⟩ : ∃ r ∈ s.planRows, r.id = text "c" ∧
      r.status = .scheduled ∧ (r.startsAt.val : Int) ≤ (Stamp.ofHours 4).instant := by decide +kernel
  refine ⟨?_, ?_, ?_⟩
  · rw [← hcid]
    exact ((no_plan_lost hrun hc).1 hscheduled 3 _ none hroom hstart ⟨none, rfl⟩).mpr
      ⟨by decide, by decide +kernel, hfit _ _⟩
  · obtain ⟨claimedAt, hclaimed, hback⟩ := (no_plan_lost hrun hb).2.1 hprocessing
    obtain rfl := Option.some.inj (hclaimed.symm.trans hsince)
    have hcutoff : (Stamp.ofHours 4).add (-3600000000) = .ok (.ofHours 3) := rfl
    rw [← hbid]
    exact (hback 3 _ 3600000000 _ hroom (by decide) hcutoff (by decide +kernel)).mpr
      ⟨by decide, by decide +kernel, hfit _ _⟩
  · rw [← haid]
    exact (no_plan_lost hrun ha).2.2 (.inl hfailed) none none rfl

/-- The last reading of a clock that is an hour behind universal time. -/
def lastHour : Stamp := ⟨⟨wallCount - 1, by decide⟩, some (-3600000000)⟩

/-- A scheduled plan whose start has come is returned neither to a caller who asks for more plans than
64 bits can count nor to one whose time has no reading in universal time. -/
theorem claims_beyond_limits :
    let s := ((Operation.create (text "a") (sampleDraft (.ofHours 1) none) (.ofHours 0)).perform empty).1
    ∃ entries, Runs empty entries s ∧ ∃ r ∈ s.planRows, r.status = .scheduled ∧
      ((s.planRows.length : Int) ≤ 2 ^ 63 ∧ (r.startsAt.val : Int) ≤ (Stamp.ofHours 2).instant ∧
        ¬s.Claims (2 ^ 63) (.ofHours 2) none r.id) ∧
      ((s.planRows.length : Int) ≤ 20 ∧ (r.startsAt.val : Int) ≤ lastHour.instant ∧
        ¬s.Claims 20 lastHour none r.id) := by
  intro s
  obtain ⟨r, hr, hscheduled, hstart, hlast⟩ : ∃ r ∈ s.planRows, r.status = .scheduled ∧
      (r.startsAt.val : Int) ≤ (Stamp.ofHours 2).instant ∧
      (r.startsAt.val : Int) ≤ lastHour.instant := by decide +kernel
  refine ⟨_, .cons _ (.nil _), r, hr, hscheduled, ⟨by decide +kernel, hstart, ?_⟩,
    ⟨by decide +kernel, hlast, ?_⟩⟩
  · rintro ⟨claimed, hclaim, -⟩
    exact absurd (claim_limits (by decide) hclaim).1 (by decide)
  · rintro ⟨claimed, hclaim, -⟩
    exact absurd (exists_instantOf.mp (claim_limits (by decide) hclaim).2).2 (by decide +kernel)

end Store

end Showrunner
