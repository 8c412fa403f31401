import Showrunner.Proofs.Store.Recovery

/-!
# What a claim takes

The plans that a claim may take are those that are scheduled and whose start has come, and, if there is
a staleness limit, those that have been processing since that limit or before. They are ranked by their
start, and by the octets of their ids where starts are the same. A claim takes the first of this ranking,
as many as asked for: it moves their rows to processing since its own time, leaves all other rows alone,
and returns the plans as their rows have become. It fails, and moves none, where they are more than a
statement has variables.
-/

namespace Showrunner

namespace Store

/-- A plan may be claimed at an instant: it is scheduled and its start has come, or it has been processing
for as long as a claim may last. A duration of zero is no limit. -/
def PlanRow.Eligible (now : Int) (staleAfter : Option Int) (r : PlanRow) : Prop :=
  r.status = .scheduled ∧ (Stamp.utc r.startsAt).instant ≤ now ∨
    r.status = .processing ∧ ∃ duration claimedAt, staleAfter = some duration ∧ duration ≠ 0 ∧
      r.claimedAt = some claimedAt ∧ (Stamp.utc claimedAt).instant ≤ now - duration

/-! ## The ranking -/

namespace PlanRow

/-- Plans with distinct ids that are sorted for a claim precede each other strictly. -/
theorem pairwise_precedes_mergeSort {rows : List PlanRow} (hids : (rows.map PlanRow.id).Nodup) :
    (rows.mergeSort comesFirst).Pairwise Precedes := by
  have hsorted := List.pairwise_mergeSort comesFirst_trans comesFirst_total rows
  have hdistinct : (rows.mergeSort comesFirst).Pairwise fun a b => a.id ≠ b.id :=
    List.pairwise_map.mp (((List.mergeSort_perm rows comesFirst).map PlanRow.id).nodup_iff.mpr hids)
  refine (hsorted.and hdistinct).imp fun {a b} ⟨hfirst, hne⟩ => ?_
  exact (precedes_or_precedes hne).resolve_right (comesFirst_iff.mp hfirst)

/-- A duration that is not zero sets a staleness limit. -/
theorem exists_limit_of_staleBefore {now : Stamp} {duration : Int} {before : Option Wall} (hne : duration ≠ 0)
    (h : staleBefore now (some duration) = .ok before) :
    ∃ limit, before = some limit ∧ (limit.val : Int) = now.instant - duration := by
  obtain ⟨limit, rfl⟩ : ∃ limit, before = some limit := by
    rw [staleBefore, if_neg hne] at h
    obtain ⟨_, -, h⟩ := bind_eq_ok.mp h
    obtain ⟨limit, -, h⟩ := bind_eq_ok.mp h
    cases h
    exact ⟨limit, rfl⟩
  obtain ⟨_, hsome, -, hlimit⟩ := staleBefore_some h
  cases hsome
  exact ⟨limit, rfl, hlimit⟩

/-- A plan is due exactly if it may be claimed. -/
theorem isDue_iff_eligible {r : PlanRow} {now : Stamp} {staleAfter : Option Int} {time : Wall}
    {before : Option Wall} (htime : instantOf now = .ok time)
    (hbefore : staleBefore now staleAfter = .ok before) :
    r.isDue time before = true ↔ r.Eligible now.instant staleAfter := by
  have hnow := instantOf_ok htime
  simp only [Eligible, Stamp.instant_utc, ← hnow]
  constructor
  · intro hdue
    rcases status_of_isDue hdue with hscheduled | hprocessing
    · have hstart : r.startsAt ≤ time := by simpa [isDue, hscheduled] using hdue
      exact .inl ⟨hscheduled, Int.ofNat_le.mpr hstart⟩
    · obtain ⟨duration, claimedAt, hduration, hne, hclaimed, hle⟩ :=
        isDue_of_processing hbefore hdue hprocessing
      exact .inr ⟨hprocessing, duration, claimedAt, hduration, hne, hclaimed, hnow ▸ hle⟩
  · rintro (⟨hscheduled, hstart⟩ | ⟨hprocessing, duration, claimedAt, rfl, hne, hclaimed, hle⟩)
    · exact isDue_of_scheduled hscheduled (Int.ofNat_le.mp hstart)
    · obtain ⟨limit, rfl, hlimit⟩ := exists_limit_of_staleBefore hne hbefore
      exact isDue_of_stale hprocessing hclaimed (Fin.le_def.mpr (by omega))

end PlanRow

/-! ## The claim -/

/-- Rewritings that agree on the rows of a table leave the same store. -/
theorem mapRows_congr {s : Store} {f g : PlanRow → PlanRow} (h : ∀ r ∈ s.planRows, f r = g r) :
    s.mapRows f = s.mapRows g := by
  cases s with
  | mk workflows plans events =>
    cases plans with
    | none => rfl
    | some rows =>
      have hrows : rows.map f = rows.map g := List.map_congr_left h
      simp only [mapRows, Option.map_some, hrows]

/-- A number or a time is out of range. -/
def Overflows (fault : Fault) : Prop := ∃ message, fault = .overflow message

/-- The universal time of a stamp is in range, or there is an overflow. -/
theorem comes_instantOf (s : Stamp) : Comes Overflows (fun _ => True) (instantOf s) := by
  unfold instantOf Stamp.toUtc
  split
  · exact trivial
  · exact ⟨_, rfl⟩

/-- A staleness limit is in range, or there is an overflow. -/
theorem comes_staleBefore (now : Stamp) (staleAfter : Option Int) :
    Comes Overflows (fun _ => True) (staleBefore now staleAfter) := by
  have hadd : ∀ micros, Comes Overflows (fun _ => True) (now.add micros) := by
    intro micros
    unfold Stamp.add
    split
    · exact trivial
    · exact ⟨_, rfl⟩
  unfold staleBefore
  split
  · exact trivial
  · split
    · exact trivial
    · exact (hadd _).bind fun before _ => (comes_instantOf before).bind fun _ _ => trivial

/-- An integer is one of 64 bits, or there is an overflow. -/
theorem comes_storable (n : Int) : Comes Overflows (fun _ => True) (storable n) := by
  unfold storable
  split
  · exact trivial
  · exact ⟨_, rfl⟩

/-- With a limit of more than 64 bits, or at a time that has no reading in universal time, there is an
overflow. -/
theorem claim_overflows {s : Store} {rows : List PlanRow} {limit : Int} {now : Stamp} {staleAfter : Option Int}
    (hrows : s.plans = some rows) (hlimit : 0 < limit)
    (hrange : ¬(limit < 2 ^ 63 ∧ ∃ time, instantOf now = .ok time)) :
    ∃ message, s.claim limit now staleAfter = .error (.overflow message) := by
  have htable : (rowsOf .plans s.plans).mapError claimFailure = .ok rows := by
    rw [hrows]
    rfl
  have hcomes : Comes Overflows (fun _ => False) (s.claim limit now staleAfter) := by
    rw [claim, if_neg (by omega), htable]
    exact (comes_staleBefore now staleAfter).bind fun _ _ => (comes_instantOf now).self.bind fun time htime =>
      (comes_storable limit).self.bind fun _ hstorable =>
        absurd ⟨lt_of_storable hstorable, time, htime⟩ hrange
  cases hclaim : s.claim limit now staleAfter with
  | ok claimed => exact (comes_iff.mp hcomes).1 claimed hclaim |>.elim
  | error fault =>
    obtain ⟨message, rfl⟩ := (comes_iff.mp hcomes).2 fault hclaim
    exact ⟨message, rfl⟩

/-- In every store that operations lead to, a claim of nothing changes nothing. A claim with a limit of 64
bits, a time with a reading in universal time and a staleness limit within the calendar takes the first of
the plans that may be claimed, as many as asked for, in the order of their starts and of the octets of their
ids. If a statement has variables for them, their rows move to processing since the time of the claim and
change in nothing else, the rest of the store is left alone, and the plans are returned as their rows have
become; if it has not, the claim fails. With any other limit or time there is an overflow. -/
theorem claim_takes_first {s : Store} {entries : List Entry} (hrun : Runs empty entries s) (limit : Int)
    (now : Stamp) (staleAfter : Option Int) :
    (limit ≤ 0 → s.claim limit now staleAfter = .ok ⟨s, [], []⟩) ∧
    (0 < limit → limit < 2 ^ 63 → ∀ time before, instantOf now = .ok time →
      staleBefore now staleAfter = .ok before →
      ∃ ranking : List PlanRow, (∀ r, r ∈ ranking ↔ r ∈ s.planRows ∧ r.Eligible now.instant staleAfter) ∧
        ranking.Pairwise PlanRow.Precedes ∧
        ((ranking.take limit.toNat).length ≤ variableLimit →
          ∃ claimed : Claimed, s.claim limit now staleAfter = .ok claimed ∧
            claimed.store = s.mapRows (fun r => if r ∈ ranking.take limit.toNat then
              { r with status := .processing, claimedAt := some time } else r) ∧
            claimed.plans.map some = (ranking.take limit.toNat).map fun r =>
              (claimed.store.row? r.id).map PlanRow.toPlan) ∧
        (variableLimit < (ranking.take limit.toNat).length →
          s.claim limit now staleAfter =
            .error (.claim (text "Could not claim due content plans: too many SQL variables")))) ∧
    (0 < limit → ¬(limit < 2 ^ 63 ∧ ∃ time, instantOf now = .ok time) →
      ∃ message, s.claim limit now staleAfter = .error (.overflow message)) := by
  obtain ⟨rows, hrows⟩ := (ready_runs ready_empty hrun).table
  refine ⟨fun hnothing => by rw [claim, if_pos hnothing], fun hlimit hsmall time before htime hbefore => ?_,
    claim_overflows hrows⟩
  have hkeyed : s.Keyed := keyed_runs keyed_empty hrun
  have htable := planRows_of_some hrows
  let ranking := (rows.filter (PlanRow.isDue time before)).mergeSort PlanRow.comesFirst
  have hranking : ∀ r, r ∈ ranking ↔ r ∈ s.planRows ∧ r.Eligible now.instant staleAfter := fun r => by
    rw [List.mem_mergeSort, List.mem_filter, PlanRow.isDue_iff_eligible htime hbefore, htable]
  have hsorted : ranking.Pairwise PlanRow.Precedes := by
    refine PlanRow.pairwise_precedes_mergeSort (List.Nodup.sublist (List.filter_sublist.map _) ?_)
    rwa [Keyed, htable] at hkeyed
  have hclaim : s.claim limit now staleAfter =
      if variableLimit < (ranking.take limit.toNat).length then .error (claimFailure tooManyVariables)
      else .ok (s.taking (ranking.take limit.toNat) time) :=
    claim_eq hkeyed hrows hlimit hsmall hbefore htime
  refine ⟨ranking, hranking, hsorted, fun hfew => ?_, fun hmany => hclaim.trans (if_pos hmany)⟩
  -- among the rows of the table, an id that is taken is the id of the row that is taken
  have htaken : ∀ r ∈ s.planRows, r.id ∈ (ranking.take limit.toNat).map PlanRow.id ↔
      r ∈ ranking.take limit.toNat := fun r hr => by
    refine ⟨fun hid => ?_, List.mem_map_of_mem⟩
    obtain ⟨r', hr', hsame⟩ := List.mem_map.mp hid
    have hmem := ((hranking r').mp (List.mem_of_mem_take hr')).1
    rwa [← List.inj_on_of_nodup_map hkeyed hmem hr hsame]
  have hstore := mapRows_congr (s := s)
    (f := fun r => if r.id ∈ (ranking.take limit.toNat).map PlanRow.id then r.claim time else r)
    (g := fun r => if r ∈ ranking.take limit.toNat then
      { r with status := .processing, claimedAt := some time } else r)
    fun r hr => by simp only [htaken r hr, PlanRow.claim]
  refine ⟨_, hclaim.trans (if_neg (by omega)), (s.store_taking _ time).trans hstore, ?_⟩
  rw [store_taking, taking, List.map_map]
  refine List.map_congr_left fun r hr => ?_
  have hmem := ((hranking r).mp (List.mem_of_mem_take hr)).1
  rw [row?_mapRows s (fun r => by split <;> rfl), row?_of_mem hkeyed hmem, Option.map_some, Option.map_some,
    if_pos (List.mem_map_of_mem hr)]
  rfl

/-- Two plans that start at the same time, and one that starts an hour later. -/
def tied : List Operation :=
  [.create (text "a") (sampleDraft (.ofHours 1) none) (.ofHours 0),
    .create (text "b") (sampleDraft (.ofHours 1) none) (.ofHours 0),
    .create (text "c") (sampleDraft (.ofHours 2) none) (.ofHours 0)]

/-- Of these a claim of two takes the two that start at the same time, in the order of their ids. -/
theorem tied_taken :
    let s := tied.foldl (fun s op => (op.perform s).1) empty
    ∃ (claimed : Claimed) (ranking : List PlanRow),
      s.claim 2 (.ofHours 3) (some 3600000000) = .ok claimed ∧
      claimed.plans.map Plan.id = [text "a", text "b"] ∧
      (∀ r, r ∈ ranking ↔ r ∈ s.planRows ∧ r.Eligible (Stamp.ofHours 3).instant (some 3600000000)) ∧
      ranking.Pairwise PlanRow.Precedes ∧
      claimed.store = s.mapRows (fun r => if r ∈ ranking.take 2 then
        { r with status := .processing, claimedAt := some (Stamp.ofHours 3).wall } else r) := by
  intro s
  obtain ⟨entries, hrun⟩ : ∃ entries, Runs empty entries s :=
    ⟨_, .cons (.create (text "a") (sampleDraft (.ofHours 1) none) (.ofHours 0))
      (.cons (.create (text "b") (sampleDraft (.ofHours 1) none) (.ofHours 0))
        (.cons (.create (text "c") (sampleDraft (.ofHours 2) none) (.ofHours 0)) (.nil _)))⟩
  have htime : instantOf (.ofHours 3) = .ok (Stamp.ofHours 3).wall := instantOf_utc _
  have hbefore : staleBefore (.ofHours 3) (some 3600000000) = .ok (some (Stamp.ofHours 2).wall) := rfl
  have hdue : dueRows s.planRows 2 (Stamp.ofHours 3).wall (some (Stamp.ofHours 2).wall) = s.planRows.take 2 := by
    rw [dueRows_of_pairwise (by decide +kernel)]
    decide +kernel
  obtain ⟨ranking, hranking, hsorted, htakes, hfails⟩ :=
    (claim_takes_first hrun 2 (.ofHours 3) (some 3600000000)).2.1 (by decide) (by decide) _ _ htime hbefore
  have htwo : (ranking.take (2 : Int).toNat).length ≤ variableLimit :=
    Nat.le_trans (List.length_take_le _ _) (by decide)
  obtain ⟨claimed, hclaim, hstore, -⟩ := htakes htwo
  have hids : claimed.plans.map Plan.id = [text "a", text "b"] := by
    have htaking : s.claim 2 (.ofHours 3) (some 3600000000) = .ok (s.taking (s.planRows.take 2) _) :=
      claim_of_due (keyed_runs keyed_empty hrun) rfl (by decide) (by decide) hbefore htime hdue
        (by decide +kernel)
    rw [Except.ok.inj (hclaim.symm.trans htaking)]
    decide +kernel
  exact ⟨claimed, ranking, hclaim, hids, hranking, hsorted, hstore⟩

/-- A plan that may be claimed is claimed neither with a limit of more than 64 bits nor at a time that has no
reading in universal time. -/
theorem claim_out_of_range :
    let s := ((Operation.create (text "a") (sampleDraft (.ofHours 1) none) (.ofHours 0)).perform empty).1
    ∃ entries, Runs empty entries s ∧ ∃ r ∈ s.planRows,
      (r.Eligible (Stamp.ofHours 2).instant none ∧ ¬∃ claimed, s.claim (2 ^ 63) (.ofHours 2) none = .ok claimed) ∧
      (r.Eligible lastHour.instant none ∧ ¬∃ claimed, s.claim 20 lastHour none = .ok claimed) := by
  intro s
  obtain ⟨r, hr, hscheduled, hstart, hlast⟩ : ∃ r ∈ s.planRows, r.status = .scheduled ∧
      (Stamp.utc r.startsAt).instant ≤ (Stamp.ofHours 2).instant ∧
      (Stamp.utc r.startsAt).instant ≤ lastHour.instant := by decide +kernel
  refine ⟨_, .cons _ (.nil _), r, hr, ⟨.inl ⟨hscheduled, hstart⟩, ?_⟩, .inl ⟨hscheduled, hlast⟩, ?_⟩
  · rintro ⟨claimed, hclaim⟩
    exact absurd (claim_limits (by decide) hclaim).1 (by decide)
  · rintro ⟨claimed, hclaim⟩
    exact absurd (exists_instantOf.mp (claim_limits (by decide) hclaim).2).2 (by decide +kernel)

end Store

end Showrunner
