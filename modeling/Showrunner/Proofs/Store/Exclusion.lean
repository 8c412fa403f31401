import Showrunner.Proofs.Store.Operations

/-!
# Claims exclude each other

A plan that has been claimed stays claimed until it is finished. Between two claims of one plan it
was therefore finished, unless the later claim took it over: then the later claim has a staleness
limit, and the latest claim before it lies at or before that limit. The clocks of the callers may
disagree and run backwards; only the stamp that a claim wrote and the one with which a later claim
compares it matter.

The invariant is that the row of a claimed plan shows the time of its latest claim. It ties the
row to the entries of the run, so that a claim that looks at the row looks at the entry that wrote
it.
-/

namespace Showrunner

namespace Store

/-- The time that the latest claim of a plan wrote. -/
def lastClaimedAt (id : Text) (entries : List Entry) : Option Stamp :=
  (entries.filterMap (Entry.claimedAt? id)).getLast?

/-- A row says that its plan is being processed, and since when. -/
def PlanRow.ClaimedAt (r : PlanRow) (time : Wall) : Prop :=
  r.status = .processing ∧ r.claimedAt = some time

/-- An entry that returns no plan shows no time of a claim. -/
theorem claimedAt?_eq_none {entry : Entry} {id : Text} (h : entry.returns id = false) :
    entry.claimedAt? id = none := by
  unfold Entry.returns at h
  unfold Entry.claimedAt?
  split at h
  · next plans =>
    have hnone : plans.find? (·.id = id) = none := by
      simpa [List.find?_eq_none] using h
    simp only [hnone, Option.bind_none]
  · rfl

/-- A claim shows the time that it wrote with a plan that it returns. -/
theorem claimedAt?_of_find? {id : Text} {limit : Int} {now : Stamp} {staleAfter : Option Int}
    {plans : List Plan} {p : Plan} (h : plans.find? (·.id = id) = some p) :
    Entry.claimedAt? id ⟨.claim limit now staleAfter, .claimed plans⟩ = p.claimedAt := by
  simp only [Entry.claimedAt?, h, Option.bind_some]

/-- A claim that returns a plan leaves a row that shows the time that the claim wrote. -/
theorem RowChange.claimedAt_of_returns {entry : Entry} {id : Text} {row row' : Option PlanRow}
    (h : RowChange id entry row row') (hreturns : entry.returns id = true) :
    ∃ r' time, row' = some r' ∧ r'.ClaimedAt time ∧
      entry.claimedAt? id = some (Stamp.utc time) := by
  cases h with
  | kept hnot _ => simp [hnot] at hreturns
  | @claimed _ _ _ _ r time _ _ _ _ hplans =>
    exact ⟨r.claim time, time, rfl, ⟨rfl, rfl⟩, claimedAt?_of_find? hplans⟩
  | created => simp [Entry.returns] at hreturns
  | completed => simp [Entry.returns] at hreturns
  | failed => simp [Entry.returns] at hreturns
  | requeued => simp [Entry.returns] at hreturns

/-- Until a plan is finished its row shows the time that its latest claim wrote. -/
theorem RowChange.claimedAt_of_not_finishes {entry : Entry} {id : Text} {row' : Option PlanRow}
    {r : PlanRow} {time : Wall} (h : RowChange id entry (some r) row') (hr : r.ClaimedAt time)
    (hfinishes : entry.finishes id = false) :
    ∃ r' time', row' = some r' ∧ r'.ClaimedAt time' ∧
      (entry.claimedAt? id).getD (Stamp.utc time) = Stamp.utc time' := by
  obtain ⟨hprocessing, hclaimed⟩ := hr
  cases h with
  | kept hreturns _ =>
    rw [claimedAt?_eq_none hreturns]
    exact ⟨r, time, rfl, ⟨hprocessing, hclaimed⟩, rfl⟩
  | @claimed _ _ _ _ _ time' _ _ _ _ hplans =>
    refine ⟨r.claim time', time', rfl, ⟨rfl, rfl⟩, ?_⟩
    rw [claimedAt?_of_find? hplans]
    rfl
  | completed => simp [Entry.finishes] at hfinishes
  | failed => simp [Entry.finishes] at hfinishes
  | requeued _ hrequeueable =>
    exact absurd hprocessing (ne_processing_of_isRequeueable hrequeueable)

/-- A claim that returns a plan that is being processed has a staleness limit, and the plan was
claimed at or before it. -/
theorem RowChange.stale_of_returns {entry : Entry} {id : Text} {row' : Option PlanRow}
    {r : PlanRow} {time : Wall} (h : RowChange id entry (some r) row') (hr : r.ClaimedAt time)
    (hreturns : entry.returns id = true) :
    ∃ limit now duration outcome, entry = ⟨.claim limit now (some duration), outcome⟩ ∧
      duration ≠ 0 ∧ (Stamp.utc time).instant ≤ now.instant - duration := by
  obtain ⟨hprocessing, hclaimed⟩ := hr
  cases h with
  | kept hnot _ => simp [hnot] at hreturns
  | @claimed limit now _ plans _ _ _ _ hbefore hdue _ =>
    obtain ⟨duration, claimedAt, rfl, hne, hat, hle⟩ := isDue_of_processing hbefore hdue hprocessing
    obtain rfl : claimedAt = time := Option.some.inj (hat.symm.trans hclaimed)
    refine ⟨limit, now, duration, .claimed plans, rfl, hne, ?_⟩
    rw [Stamp.instant_utc]
    exact hle
  | completed => simp [Entry.returns] at hreturns
  | failed => simp [Entry.returns] at hreturns
  | requeued => simp [Entry.returns] at hreturns

/-- While a run does not finish a claimed plan, its row shows the time that the latest claim
wrote. -/
theorem claimedAt_runs {s s' : Store} {entries : List Entry} {id : Text} {r : PlanRow} {time : Wall}
    (hs : s.Keyed) (hrun : Runs s entries s') (hrow : s.row? id = some r) (hr : r.ClaimedAt time)
    (hfinishes : ∀ entry ∈ entries, entry.finishes id = false) :
    ∃ r' time', s'.row? id = some r' ∧ r'.ClaimedAt time' ∧
      (lastClaimedAt id entries).getD (Stamp.utc time) = Stamp.utc time' := by
  induction hrun generalizing r time with
  | nil s => exact ⟨r, time, hrow, hr, rfl⟩
  | cons op _ ih =>
    have hchange := rowChange_perform hs op id
    rw [hrow] at hchange
    obtain ⟨r₁, time₁, hrow₁, hr₁, hat₁⟩ :=
      hchange.claimedAt_of_not_finishes hr (hfinishes _ List.mem_cons_self)
    obtain ⟨r', time', hrow', hr', hat'⟩ := ih (keyed_perform hs op) hrow₁ hr₁
      fun entry hentry => hfinishes entry (List.mem_cons_of_mem _ hentry)
    refine ⟨r', time', hrow', hr', ?_⟩
    rw [← hat', ← hat₁]
    unfold lastClaimedAt
    cases hclaimed : Entry.claimedAt? id ⟨op, (op.perform _).2⟩ with
    | none => rw [List.filterMap_cons_none hclaimed, Option.getD_none]
    | some claimedAt =>
      rw [List.filterMap_cons_some hclaimed, List.getLast?_cons, Option.getD_some,
        Option.getD_some]

/-- An operation of another kind does not tell what a claim tells. -/
theorem told_ne_claimed {α : Type} {s : Store} {tell : α → Outcome} {done : Except Fault (Store × α)}
    {plans : List Plan} (htell : ∀ a, tell a ≠ .claimed plans) :
    (told s tell done).2 ≠ .claimed plans := by
  cases done with
  | error fault =>
    intro h
    cases h
  | ok result => exact htell result.2

/-- A claim that is performed returns no plan twice. -/
theorem nodup_perform {s : Store} (hs : s.Keyed) {op : Operation} {plans : List Plan}
    (h : (op.perform s).2 = .claimed plans) : (plans.map Plan.id).Nodup := by
  cases op with
  | claim limit now staleAfter =>
    simp only [Operation.perform] at h
    cases hclaim : s.claim limit now staleAfter with
    | error fault =>
      rw [hclaim] at h
      cases h
    | ok claimed =>
      rw [hclaim] at h
      cases h
      exact nodup_claim hs hclaim
  | create id draft now => exact absurd h (told_ne_claimed (by simp))
  | complete id next now => exact absurd h (told_ne_claimed (by simp))
  | fail id message now => exact absurd h (told_ne_claimed (by simp))
  | requeue id startsAt => exact absurd h (told_ne_claimed (by simp))

/-- No claim of a run returns a plan twice. -/
theorem nodup_of_mem_runs {s s' : Store} {entries : List Entry} (hs : s.Keyed)
    (hrun : Runs s entries s') {op : Operation} {plans : List Plan}
    (hentry : ⟨op, .claimed plans⟩ ∈ entries) : (plans.map Plan.id).Nodup := by
  induction hrun with
  | nil s => cases hentry
  | cons op' _ ih =>
    rcases List.mem_cons.mp hentry with hhead | hrest
    · exact nodup_perform hs (Entry.mk.inj hhead).2.symm
    · exact ih (keyed_perform hs op') hrest

/-- Claims are exclusive in every run. No claim returns a plan twice. Of two claims that return
one plan, either the plan was finished between them, or the later one has a staleness limit that
the time written by the latest claim before it does not pass. -/
theorem claims_exclusive {s s' : Store} (hs : s.Keyed) {entries : List Entry}
    (hrun : Runs s entries s') :
    (∀ op plans, ⟨op, .claimed plans⟩ ∈ entries → (plans.map Plan.id).Nodup) ∧
    ∀ id before first between later after,
      entries = before ++ first :: (between ++ later :: after) →
      first.returns id = true → later.returns id = true →
      (∃ entry ∈ between, entry.finishes id = true) ∨
      ∃ limit now duration outcome claimedAt,
        later = ⟨.claim limit now (some duration), outcome⟩ ∧ duration ≠ 0 ∧
        lastClaimedAt id (before ++ first :: between) = some claimedAt ∧
        claimedAt.instant ≤ now.instant - duration := by
  refine ⟨fun op plans => nodup_of_mem_runs hs hrun, ?_⟩
  rintro id before first between later after rfl hfirst hlater
  by_cases hfinish : ∃ entry ∈ between, entry.finishes id = true
  · exact .inl hfinish
  right
  have hkept : ∀ entry ∈ between, entry.finishes id = false := by simpa using hfinish
  -- The stores in front of the first claim, behind it, and in front of the later one.
  obtain ⟨s₀, hrun₀, hrun⟩ := runs_append hrun
  have hs₀ : s₀.Keyed := keyed_runs hs hrun₀
  cases hrun with
  | cons op hrun =>
    obtain ⟨r₁, time₁, hrow₁, hr₁, hat₁⟩ :=
      (rowChange_perform hs₀ op id).claimedAt_of_returns hfirst
    have hs₁ := keyed_perform hs₀ op
    obtain ⟨s₂, hrun₂, hrun⟩ := runs_append hrun
    obtain ⟨r₂, time₂, hrow₂, hr₂, hat₂⟩ := claimedAt_runs hs₁ hrun₂ hrow₁ hr₁ hkept
    cases hrun with
    | cons op' _ =>
      have hchange := rowChange_perform (keyed_runs hs₁ hrun₂) op' id
      rw [hrow₂] at hchange
      obtain ⟨limit, now, duration, outcome, hentry, hne, hle⟩ :=
        hchange.stale_of_returns hr₂ hlater
      refine ⟨limit, now, duration, outcome, Stamp.utc time₂, hentry, hne, ?_, hle⟩
      unfold lastClaimedAt at hat₂ ⊢
      rw [List.filterMap_append, List.filterMap_cons_some hat₁, List.getLast?_append,
        List.getLast?_cons, hat₂, Option.some_or]

/-- A plan that was claimed and not finished is taken over an hour later by a claim that waits an
hour. -/
theorem claims_exclusive_takeover :
    let created := Operation.create (text "a") (sampleDraft (.ofHours 1) none) (.ofHours 0)
    let first := Operation.claim 20 (.ofHours 2) none
    let later := Operation.claim 20 (.ofHours 3) (some 3600000000)
    let s₁ := (created.perform empty).1
    let s₂ := (first.perform s₁).1
    ∃ limit now duration outcome claimedAt,
      Entry.mk later (later.perform s₂).2 = ⟨.claim limit now (some duration), outcome⟩ ∧
      duration ≠ 0 ∧
      lastClaimedAt (text "a") [⟨created, (created.perform empty).2⟩, ⟨first, (first.perform s₁).2⟩] =
        some claimedAt ∧
      claimedAt.instant ≤ now.instant - duration := by
  intro created first later s₁ s₂
  have hrun := Runs.cons (s := empty) created (.cons first (.cons later (.nil _)))
  rcases (claims_exclusive keyed_empty hrun).2 (text "a") [_] _ [] _ [] rfl
      (by decide +kernel) (by decide +kernel) with ⟨entry, hentry, _⟩ | htakeover
  · cases hentry
  · exact htakeover

end Store

end Showrunner
