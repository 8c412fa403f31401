import Mathlib.Algebra.Group.Int.Defs
import Showrunner.Proofs.Outcome
import Showrunner.Proofs.Store.Steps
import Showrunner.Proofs.Time.Instant

/-!
# The rows of the plan table

A plan is looked up by its id, and a store keeps at most one row for an id. Every operation on
plans rewrites rows in place or adds one row at the end, so what it does to the table is said by
what it does to the row of each id. The lemmas below say this once for each operation that
succeeds; whatever is proved about plans rests on them and opens no operation again.
-/

namespace Showrunner

namespace Store

/-! ## Elements with distinct keys -/

/-- Among elements with distinct keys each is found by its key. -/
theorem find?_key {α : Type} {key : α → Text} {as : List α} (hkeys : (as.map key).Nodup) {a : α}
    (ha : a ∈ as) : as.find? (key · = key a) = some a := by
  cases hfind : as.find? (key · = key a) with
  | none => exact absurd (decide_eq_true rfl) (List.find?_eq_none.mp hfind a ha)
  | some found =>
    have hsame : key found = key a := by simpa using List.find?_some hfind
    rw [List.inj_on_of_nodup_map hkeys (List.mem_of_find?_eq_some hfind) ha hsame]

/-- Among elements with distinct keys each is the only one with its key. -/
theorem filter_key {α : Type} {key : α → Text} {as : List α} (hkeys : (as.map key).Nodup) {a : α}
    (ha : a ∈ as) : as.filter (key · = key a) = [a] := by
  have hnodup : (as.filter (key · = key a)).Nodup := (List.Nodup.of_map _ hkeys).filter _
  have hmem : ∀ b, b ∈ as.filter (key · = key a) ↔ b = a := fun b => by
    rw [List.mem_filter, decide_eq_true_iff]
    exact ⟨fun h => List.inj_on_of_nodup_map hkeys h.1 ha h.2, fun h => ⟨h ▸ ha, h ▸ rfl⟩⟩
  exact List.perm_singleton.mp ((List.perm_ext_iff_of_nodup hnodup (List.nodup_singleton a)).mpr
    fun b => by rw [hmem, List.mem_singleton])

/-! ## The table -/

/-- The rows of the plan table; a table that has been dropped has none. -/
def planRows (s : Store) : List PlanRow := s.plans.getD []

/-- A table that is there has its rows. -/
theorem planRows_of_some {s : Store} {rows : List PlanRow} (h : s.plans = some rows) : s.planRows = rows := by
  rw [planRows, h, Option.getD_some]

/-- The row of a plan. -/
def row? (s : Store) (id : Text) : Option PlanRow := s.planRows.find? (·.id = id)

/-- No two rows of the plan table have one id. -/
def Keyed (s : Store) : Prop := (s.planRows.map PlanRow.id).Nodup

/-- Rewrite every row of the plan table. -/
def mapRows (s : Store) (g : PlanRow → PlanRow) : Store :=
  { s with plans := s.plans.map (List.map g) }

/-- A new store has no plans. -/
theorem keyed_empty : empty.Keyed := List.nodup_nil

/-- A row that was looked up is in the table and has the id. -/
theorem row?_some {s : Store} {id : Text} {r : PlanRow} (h : s.row? id = some r) :
    r ∈ s.planRows ∧ r.id = id :=
  ⟨List.mem_of_find?_eq_some h, by simpa using List.find?_some h⟩

/-- A row of the table is found under its id. -/
theorem row?_of_mem {s : Store} (hs : s.Keyed) {r : PlanRow} (hr : r ∈ s.planRows) :
    s.row? r.id = some r := find?_key hs hr

/-- Rewriting rows rewrites the rows of the table. -/
theorem planRows_mapRows (s : Store) (g : PlanRow → PlanRow) :
    (s.mapRows g).planRows = s.planRows.map g := by
  unfold mapRows planRows
  cases s.plans <;> rfl

/-- Rewriting rows rewrites the row of each plan, if no id changes. -/
theorem row?_mapRows (s : Store) {g : PlanRow → PlanRow} (hg : ∀ r, (g r).id = r.id) (id : Text) :
    (s.mapRows g).row? id = (s.row? id).map g := by
  unfold row?
  rw [planRows_mapRows, List.find?_map]
  congr 2
  funext r
  simp [hg r]

/-- Rewriting rows keeps ids distinct, if no id changes. -/
theorem keyed_mapRows {s : Store} (hs : s.Keyed) {g : PlanRow → PlanRow}
    (hg : ∀ r, (g r).id = r.id) : (s.mapRows g).Keyed := by
  unfold Keyed
  rw [planRows_mapRows, List.map_map]
  have hid : PlanRow.id ∘ g = PlanRow.id := funext hg
  rwa [hid]

/-- Rewriting no row of the table changes nothing. -/
theorem mapRows_eq_self {s : Store} {g : PlanRow → PlanRow} (hg : ∀ r ∈ s.planRows, g r = r) :
    s.mapRows g = s := by
  cases s with
  | mk workflows plans events =>
    cases plans with
    | none => rfl
    | some rows =>
      have hrows : rows.map g = rows := List.map_congr_left hg |>.trans (List.map_id rows)
      simp only [mapRows, Option.map_some, hrows]

/-- A table that is there holds the rows. -/
theorem rowsOf_plans {s : Store} {rows : List PlanRow} (h : rowsOf .plans s.plans = .ok rows) :
    s.plans = some rows := by
  unfold rowsOf at h
  split at h
  · next hplans => cases h; exact hplans
  · cases h

/-! ## Creating a plan -/

/-- A plan that is created had no row before; its row is added and no other row changes. -/
theorem createPlan_ok {s s' : Store} {id : Text} {draft : Plan.Draft} {now : Stamp} {p : Plan}
    (h : s.createPlan id draft now = .ok (s', p)) :
    ∃ startsAt createdAt, instantOf draft.startsAt = .ok startsAt ∧ instantOf now = .ok createdAt ∧
      s.row? id = none ∧
      s'.planRows = s.planRows ++ [PlanRow.new id draft startsAt createdAt] ∧
      p = (PlanRow.new id draft startsAt createdAt).toPlan := by
  unfold createPlan at h
  simp only [bind_eq_ok] at h
  obtain ⟨startsAt, hstart, createdAt, hcreated, rows, hrows, -, -, h⟩ := h
  have hplans := rowsOf_plans hrows
  split at h
  · obtain ⟨_, hfail, -⟩ := bind_eq_ok.mp h
    cases hfail
  · next hfree =>
    cases h
    refine ⟨startsAt, createdAt, hstart, hcreated, ?_, ?_, rfl⟩
    · simpa [row?, planRows, hplans] using hfree
    · simp [planRows, hplans]

/-- After a plan has been created, its id finds its row and other ids find what they found. -/
theorem row?_createPlan {s s' : Store} {id : Text} {draft : Plan.Draft} {now : Stamp} {p : Plan}
    (h : s.createPlan id draft now = .ok (s', p)) :
    s.row? id = none ∧
    ∃ startsAt createdAt, instantOf draft.startsAt = .ok startsAt ∧ instantOf now = .ok createdAt ∧
      p = (PlanRow.new id draft startsAt createdAt).toPlan ∧
      ∀ other, s'.row? other =
        if other = id then some (PlanRow.new id draft startsAt createdAt) else s.row? other := by
  obtain ⟨startsAt, createdAt, hstart, hcreated, hfree, hrows, hp⟩ := createPlan_ok h
  refine ⟨hfree, startsAt, createdAt, hstart, hcreated, hp, fun other => ?_⟩
  have hfound : s'.row? other =
      (s.row? other).or ([PlanRow.new id draft startsAt createdAt].find? (·.id = other)) := by
    unfold row?
    rw [hrows, List.find?_append]
  rw [hfound]
  by_cases heq : other = id
  · subst heq
    simp [hfree, PlanRow.new]
  · have hne : (PlanRow.new id draft startsAt createdAt).id ≠ other := fun he => heq he.symm
    simp [heq, hne]

/-- Creating a plan keeps ids distinct. -/
theorem keyed_createPlan {s s' : Store} {id : Text} {draft : Plan.Draft} {now : Stamp} {p : Plan}
    (hs : s.Keyed) (h : s.createPlan id draft now = .ok (s', p)) : s'.Keyed := by
  obtain ⟨startsAt, createdAt, -, -, hfree, hrows, -⟩ := createPlan_ok h
  unfold Keyed
  rw [hrows, List.map_append]
  refine List.Nodup.append hs (List.nodup_singleton _) ?_
  intro taken htaken hnew
  obtain ⟨r, hr, rfl⟩ := List.mem_map.mp htaken
  have hid : r.id = id := List.mem_singleton.mp hnew
  have hmissing := List.find?_eq_none.mp hfree r hr
  simp [hid] at hmissing

/-! ## Claiming -/

/-- What a claim leaves that takes rows at a time. -/
def taking (s : Store) (due : List PlanRow) (time : Wall) : Claimed :=
  { store := s.mapRows fun r => if (due.map PlanRow.id).contains r.id then r.claim time else r
    plans := due.map fun r => (r.claim time).toPlan
    reclaimed := (due.filter (·.status = .processing)).map PlanRow.id }

/-- The rows with the ids of those that are taken are claimed. -/
theorem store_taking (s : Store) (due : List PlanRow) (time : Wall) :
    (s.taking due time).store = s.mapRows fun r => if r.id ∈ due.map PlanRow.id then r.claim time else r := by
  simp only [taking, List.contains_iff_mem]

/-- The plans of the rows that are taken are returned. -/
theorem ids_taking (s : Store) (due : List PlanRow) (time : Wall) :
    (s.taking due time).plans.map Plan.id = due.map PlanRow.id := by
  rw [taking, List.map_map]
  rfl

/-- A claim that takes no row leaves the store as it is. -/
theorem taking_nil (s : Store) (time : Wall) : s.taking [] time = ⟨s, [], []⟩ := by
  rw [taking, mapRows_eq_self (by simp)]
  rfl

/-- An integer that has a place in a column has at most 64 bits. -/
theorem lt_of_storable {n : Int} (h : storable n = .ok ()) : n < 2 ^ 63 := by
  rw [storable] at h
  split at h
  · omega
  · cases h

/-- A claim of anything that succeeds has a limit of 64 bits, a table of plans, and a time and a staleness
limit with readings in universal time. -/
theorem claim_reads {s : Store} {limit : Int} {now : Stamp} {staleAfter : Option Int} {claimed : Claimed}
    (hlimit : 0 < limit) (h : s.claim limit now staleAfter = .ok claimed) :
    ∃ before time rows, staleBefore now staleAfter = .ok before ∧ instantOf now = .ok time ∧
      s.plans = some rows ∧ limit < 2 ^ 63 := by
  rw [claim, if_neg (by omega)] at h
  simp only [bind_eq_ok] at h
  obtain ⟨before, hbefore, time, htime, rows, hrows, _, hstorable, -⟩ := h
  exact ⟨before, time, rows, hbefore, htime, rowsOf_plans (mapError_eq_ok.mp hrows), lt_of_storable hstorable⟩

/-- With such a limit, table and times the steps of a claim come to this: it takes the due rows, unless they
are more than a statement has variables. -/
theorem claim_eq {s : Store} (hs : s.Keyed) {rows : List PlanRow} {limit : Int} {now : Stamp}
    {staleAfter : Option Int} {before : Option Wall} {time : Wall} (hrows : s.plans = some rows)
    (hlimit : 0 < limit) (hsmall : limit < 2 ^ 63) (hbefore : staleBefore now staleAfter = .ok before)
    (htime : instantOf now = .ok time) :
    s.claim limit now staleAfter =
      if variableLimit < (dueRows rows limit.toNat time before).length then
        .error (claimFailure tooManyVariables)
      else .ok (s.taking (dueRows rows limit.toNat time before) time) := by
  have hstorable : storable limit = .ok () := by
    rw [storable, if_pos (by omega)]
  have htable : (rowsOf .plans s.plans).mapError claimFailure = .ok rows := by
    rw [hrows]
    rfl
  have hids : (rows.map PlanRow.id).Nodup := by
    rwa [Keyed, planRows_of_some hrows] at hs
  have hmem : ∀ r ∈ dueRows rows limit.toNat time before, r ∈ rows := fun r hr => (mem_dueRows hr).1
  have hdistinct := nodup_dueRows hids limit.toNat time before
  have hsorted := pairwise_dueRows rows limit.toNat time before
  rw [claim, if_neg (by omega)]
  simp only [hbefore, htime, htable, hstorable, bind, Except.bind, pure, Except.pure]
  generalize dueRows rows limit.toNat time before = due at hmem hdistinct hsorted ⊢
  have hstore : { s with plans := some (rows.map fun r =>
      if r.id ∈ due.map PlanRow.id then r.claim time else r) } = (s.taking due time).store := by
    rw [store_taking, mapRows, hrows, Option.map_some]
  have hids' : (due.map PlanRow.candidate).map Candidate.id = due.map PlanRow.id := by
    rw [List.map_map]
    rfl
  rw [swapAll_candidates hids hdistinct hmem]
  simp only [hstore, hids', List.isEmpty_map]
  cases due with
  | nil => simp only [List.isEmpty_nil, if_true, List.length_nil, Nat.not_lt_zero, if_false, taking_nil]
  | cons d due =>
    rw [if_neg (by simp)]
    by_cases hmany : variableLimit < (d :: due).length
    · rw [rowsWithin, if_pos (by rwa [List.length_map]), if_pos hmany]
      rfl
    · rw [rowsWithin_claimed hids hdistinct hmem hsorted (by omega), if_neg hmany]
      simp only [Except.mapError, taking, List.map_map, List.filter_map]
      rfl

/-- It takes the due rows if a statement has variables for them. -/
theorem claim_of_due {s : Store} (hs : s.Keyed) {rows due : List PlanRow} {limit : Int} {now : Stamp}
    {staleAfter : Option Int} {before : Option Wall} {time : Wall} (hrows : s.plans = some rows)
    (hlimit : 0 < limit) (hsmall : limit < 2 ^ 63) (hbefore : staleBefore now staleAfter = .ok before)
    (htime : instantOf now = .ok time) (hdue : dueRows s.planRows limit.toNat time before = due)
    (hfew : due.length ≤ variableLimit) : s.claim limit now staleAfter = .ok (s.taking due time) := by
  rw [planRows_of_some hrows] at hdue
  rw [claim_eq hs hrows hlimit hsmall hbefore htime, hdue, if_neg (by omega)]

/-- A claim that succeeds takes due rows of the table. -/
theorem claim_ok {s : Store} (hs : s.Keyed) {limit : Int} {now : Stamp} {staleAfter : Option Int}
    {claimed : Claimed} (h : s.claim limit now staleAfter = .ok claimed) :
    ∃ (due : List PlanRow) (time : Wall),
      (∀ r ∈ due, r ∈ s.planRows ∧ instantOf now = .ok time ∧
        ∃ before, staleBefore now staleAfter = .ok before ∧ r.isDue time before = true) ∧
      (due.map PlanRow.id).Nodup ∧ claimed = s.taking due time := by
  by_cases hlimit : limit ≤ 0
  · rw [claim, if_pos hlimit] at h
    cases h
    exact ⟨[], ⟨0, by decide⟩, by simp, List.nodup_nil, (taking_nil s _).symm⟩
  · obtain ⟨before, time, rows, hbefore, htime, hrows, hsmall⟩ := claim_reads (by omega) h
    have htable := planRows_of_some hrows
    rw [claim_eq hs hrows (by omega) hsmall hbefore htime] at h
    split at h
    · cases h
    · cases h
      refine ⟨_, time, fun r hr => ?_, nodup_dueRows (htable ▸ hs) _ _ _, rfl⟩
      obtain ⟨hmem, hdue⟩ := mem_dueRows hr
      exact ⟨htable ▸ hmem, htime, before, hbefore, hdue⟩

/-- Whatever its ids, a claim that succeeds rewrites rows of plans, claims those that it changes, and returns
rows of the table that it leaves. -/
theorem claim_rewrites {s : Store} {limit : Int} {now : Stamp} {staleAfter : Option Int} {claimed : Claimed}
    (h : s.claim limit now staleAfter = .ok claimed) :
    ∃ (g : PlanRow → PlanRow) (time : Wall), (∀ r, g r = r ∨ g r = r.claim time) ∧
      claimed.store = s.mapRows g ∧ ∀ p ∈ claimed.plans, ∃ r ∈ claimed.store.planRows, p = r.toPlan := by
  unfold claim at h
  split at h
  · cases h
    exact ⟨id, ⟨0, by decide⟩, fun _ => .inl rfl, (mapRows_eq_self fun _ _ => rfl).symm, fun _ hp => nomatch hp⟩
  · simp only [bind_eq_ok] at h
    obtain ⟨before, -, time, -, rows, hrows, -, -, h⟩ := h
    have hplans := rowsOf_plans (mapError_eq_ok.mp hrows)
    obtain ⟨g, hg, hrewritten⟩ := swapAll_rewrites time
      ((dueRows rows limit.toNat time before).map PlanRow.candidate) rows
    have hstore : { s with plans := some (rows.map g) } = s.mapRows g := by
      rw [mapRows, hplans, Option.map_some]
    rw [hrewritten, hstore] at h
    refine ⟨g, time, hg, ?_⟩
    split at h
    · cases h
      exact ⟨rfl, fun _ hp => nomatch hp⟩
    · obtain ⟨selected, hselected, h⟩ := bind_eq_ok.mp h
      cases h
      refine ⟨rfl, List.forall_mem_map.mpr fun r hr => ⟨r, ?_, rfl⟩⟩
      rw [planRows_mapRows, planRows_of_some hplans]
      have hwithin := mapError_eq_ok.mp hselected
      rw [rowsWithin] at hwithin
      split at hwithin
      · cases hwithin
      · cases hwithin
        exact (List.mem_filter.mp (List.mem_mergeSort.mp hr)).1

/-- No claim returns a plan twice. -/
theorem nodup_claim {s : Store} (hs : s.Keyed) {limit : Int} {now : Stamp}
    {staleAfter : Option Int} {claimed : Claimed}
    (h : s.claim limit now staleAfter = .ok claimed) : (claimed.plans.map Plan.id).Nodup := by
  obtain ⟨due, time, -, hnodup, rfl⟩ := claim_ok hs h
  rwa [ids_taking]

/-- Claiming keeps ids distinct. -/
theorem keyed_claim {s : Store} (hs : s.Keyed) {limit : Int} {now : Stamp}
    {staleAfter : Option Int} {claimed : Claimed}
    (h : s.claim limit now staleAfter = .ok claimed) : claimed.store.Keyed := by
  obtain ⟨due, time, -, -, rfl⟩ := claim_ok hs h
  exact keyed_mapRows hs fun r => by split <;> rfl

/-- A plan that a claim does not return keeps its row. -/
theorem row?_claim_of_not_mem {s : Store} (hs : s.Keyed) {limit : Int} {now : Stamp}
    {staleAfter : Option Int} {claimed : Claimed} (h : s.claim limit now staleAfter = .ok claimed) {id : Text}
    (hid : id ∉ claimed.plans.map Plan.id) : claimed.store.row? id = s.row? id := by
  obtain ⟨due, time, -, -, rfl⟩ := claim_ok hs h
  rw [ids_taking] at hid
  rw [store_taking, row?_mapRows s (fun r => by split <;> rfl)]
  cases hrow : s.row? id with
  | none => rfl
  | some r =>
    have hne : r.id ∉ due.map PlanRow.id := (row?_some hrow).2.symm ▸ hid
    simp only [Option.map_some, if_neg hne]

/-- A plan that a claim returns was due, and is returned as its row has become. -/
theorem row?_claim_of_mem {s : Store} (hs : s.Keyed) {limit : Int} {now : Stamp}
    {staleAfter : Option Int} {claimed : Claimed}
    (h : s.claim limit now staleAfter = .ok claimed) {p : Plan} (hp : p ∈ claimed.plans) :
    ∃ r time before, instantOf now = .ok time ∧ staleBefore now staleAfter = .ok before ∧
      s.row? p.id = some r ∧ r.isDue time before = true ∧ p = (r.claim time).toPlan ∧
      claimed.store.row? p.id = some (r.claim time) ∧
      (p.id ∈ claimed.reclaimed ↔ r.status = .processing) := by
  obtain ⟨due, time, hdue, hnodup, rfl⟩ := claim_ok hs h
  obtain ⟨r, hr, rfl⟩ := List.mem_map.mp hp
  obtain ⟨hmem, htime, before, hbefore, hisDue⟩ := hdue r hr
  have hrow : s.row? r.id = some r := row?_of_mem hs hmem
  refine ⟨r, time, before, htime, hbefore, hrow, hisDue, rfl, ?_, ?_⟩
  · change (s.taking due time).store.row? r.id = some (r.claim time)
    rw [store_taking, row?_mapRows s (fun r => by split <;> rfl), hrow]
    simp only [Option.map_some, if_pos (List.mem_map_of_mem hr)]
  · change r.id ∈ (s.taking due time).reclaimed ↔ r.status = .processing
    constructor
    · intro hin
      obtain ⟨taken, htaken, hid⟩ := List.mem_map.mp hin
      obtain ⟨hin, hprocessing⟩ := List.mem_filter.mp htaken
      rw [← List.inj_on_of_nodup_map hnodup hin hr hid]
      simpa using hprocessing
    · intro hprocessing
      exact List.mem_map_of_mem (List.mem_filter.mpr ⟨hr, by simpa using hprocessing⟩)

/-- The wall reading of an instant is that of universal time. -/
theorem instantOf_ok {s : Stamp} {w : Wall} (h : instantOf s = .ok w) :
    (w.val : Int) = s.instant := by
  obtain ⟨t, ht, hw⟩ := bind_eq_ok.mp h
  cases hw
  exact (Stamp.toUtc?_some (Stamp.toUtc_ok.mp ht)).2

/-- A stamp of universal time shows its wall reading. -/
@[simp] theorem instantOf_utc (w : Wall) : instantOf (Stamp.utc w) = .ok w := by
  rw [instantOf, Stamp.toUtc_utc]
  rfl

/-- A stamp that is there is shown in universal time. -/
theorem instantOf?_some (t : Stamp) : instantOf? (some t) = (instantOf t).map some := by
  rw [instantOf?, Option.mapM_some]
  rfl

/-- The staleness limit lies the given duration before the time of the claim. -/
theorem staleBefore_some {now : Stamp} {staleAfter : Option Int} {before : Wall}
    (h : staleBefore now staleAfter = .ok (some before)) :
    ∃ duration, staleAfter = some duration ∧ duration ≠ 0 ∧
      (before.val : Int) = now.instant - duration := by
  unfold staleBefore at h
  cases staleAfter with
  | none => cases h
  | some duration =>
    simp only at h
    split at h
    · cases h
    · next hne =>
      simp only [bind_eq_ok] at h
      obtain ⟨moved, hmoved, wall, hwall, h⟩ := h
      cases h
      refine ⟨duration, rfl, hne, ?_⟩
      rw [instantOf_ok hwall, Stamp.add_ok hmoved]
      omega

/-- A plan that is claimed while it is being processed was claimed at or before the staleness
limit. -/
theorem isDue_of_processing {now : Stamp} {staleAfter : Option Int} {time : Wall}
    {before : Option Wall} {r : PlanRow} (hbefore : staleBefore now staleAfter = .ok before)
    (hdue : r.isDue time before = true) (hprocessing : r.status = .processing) :
    ∃ duration claimedAt, staleAfter = some duration ∧ duration ≠ 0 ∧
      r.claimedAt = some claimedAt ∧ (claimedAt.val : Int) ≤ now.instant - duration := by
  unfold PlanRow.isDue at hdue
  cases before with
  | none => simp [hprocessing] at hdue
  | some limit =>
    cases hclaimed : r.claimedAt with
    | none => simp [hprocessing, hclaimed] at hdue
    | some claimedAt =>
      have hle : claimedAt ≤ limit := by simpa [hprocessing, hclaimed] using hdue
      obtain ⟨duration, hduration, hne, hlimit⟩ := staleBefore_some hbefore
      refine ⟨duration, claimedAt, hduration, hne, rfl, ?_⟩
      rw [← hlimit]
      exact Int.ofNat_le.mpr hle

/-- Only plans that are scheduled or being processed are due. -/
theorem status_of_isDue {time : Wall} {before : Option Wall} {r : PlanRow}
    (hdue : r.isDue time before = true) : r.status = .scheduled ∨ r.status = .processing := by
  unfold PlanRow.isDue at hdue
  simp only [Bool.or_eq_true, Bool.and_eq_true, decide_eq_true_eq] at hdue
  rcases hdue with ⟨hscheduled, -⟩ | ⟨hprocessing, -⟩
  · exact .inl hscheduled
  · exact .inr hprocessing

/-- Without a staleness limit only scheduled plans are due. -/
theorem isDue_of_patient {now : Stamp} {time : Wall} {before : Option Wall} {r : PlanRow}
    (hbefore : staleBefore now none = .ok before) (hdue : r.isDue time before = true) :
    r.status = .scheduled := by
  cases hbefore
  unfold PlanRow.isDue at hdue
  simp only [Bool.and_false, Bool.or_false, Bool.and_eq_true, decide_eq_true_eq] at hdue
  exact hdue.1

/-! ## Finishing a plan -/

/-- A completed run leaves the id of its plan alone. -/
@[simp] theorem PlanRow.id_complete (next : Option Wall) (now : Wall) (r : PlanRow) :
    (r.complete next now).id = r.id := rfl

/-- A failed run leaves the id of its plan alone. -/
@[simp] theorem PlanRow.id_fail (message : Text) (now : Wall) (r : PlanRow) :
    (r.fail message now).id = r.id := rfl

/-- Finishing a plan rewrites its row if it is being processed, and says whether it did. -/
theorem finish_ok {s s' : Store} {id : Text} {texts : List Text} {f : PlanRow → PlanRow}
    {took : Bool} (h : s.finish id texts f = .ok (s', took)) :
    s' = s.mapRows (fun r => if r.id = id ∧ r.status = .processing then f r else r) ∧
      took = s.planRows.any (fun r => r.id = id ∧ r.status = .processing) := by
  unfold finish at h
  simp only [bind_eq_ok] at h
  obtain ⟨rows, hrows, -, -, h⟩ := h
  have hplans := rowsOf_plans (mapError_eq_ok.mp hrows)
  cases h
  simp [mapRows, planRows, hplans]

/-- Finishing a plan takes effect exactly while the plan is being processed. -/
theorem finish_took {s s' : Store} (hs : s.Keyed) {id : Text} {texts : List Text}
    {f : PlanRow → PlanRow} {took : Bool} (h : s.finish id texts f = .ok (s', took)) :
    took = true ↔ ∃ r, s.row? id = some r ∧ r.status = .processing := by
  rw [(finish_ok h).2]
  simp only [List.any_eq_true, decide_eq_true_eq]
  constructor
  · rintro ⟨r, hr, rfl, hprocessing⟩
    exact ⟨r, row?_of_mem hs hr, hprocessing⟩
  · rintro ⟨r, hr, hprocessing⟩
    obtain ⟨hmem, hid⟩ := row?_some hr
    exact ⟨r, hmem, hid, hprocessing⟩

/-- Finishing a plan that is not being processed leaves the store alone. -/
theorem finish_false {s s' : Store} {id : Text} {texts : List Text} {f : PlanRow → PlanRow}
    (h : s.finish id texts f = .ok (s', false)) : s' = s := by
  obtain ⟨hstore, htook⟩ := finish_ok h
  rw [hstore]
  refine mapRows_eq_self fun r hr => if_neg ?_
  have hnone := List.any_eq_false.mp htook.symm r hr
  simpa using hnone

/-- Finishing a plan touches the row of no other plan. -/
theorem row?_finish_of_ne {s s' : Store} {id other : Text} {texts : List Text}
    {f : PlanRow → PlanRow} {took : Bool} (hf : ∀ r, (f r).id = r.id)
    (h : s.finish id texts f = .ok (s', took)) (hne : other ≠ id) :
    s'.row? other = s.row? other := by
  rw [(finish_ok h).1, row?_mapRows s (fun r => by split <;> simp [hf])]
  cases hrow : s.row? other with
  | none => rfl
  | some r =>
    have hid : ¬(r.id = id ∧ r.status = .processing) := fun ⟨hid, _⟩ =>
      hne ((row?_some hrow).2 ▸ hid)
    simp only [Option.map_some, if_neg hid]

/-- A plan that is finished while it is being processed gets the row of a finished plan. -/
theorem row?_finish {s s' : Store} {id : Text} {texts : List Text} {f : PlanRow → PlanRow}
    {took : Bool} (hf : ∀ r, (f r).id = r.id) (h : s.finish id texts f = .ok (s', took))
    {r : PlanRow} (hr : s.row? id = some r) (hprocessing : r.status = .processing) :
    s'.row? id = some (f r) := by
  rw [(finish_ok h).1, row?_mapRows s (fun r => by split <;> simp [hf]), hr]
  simp only [Option.map_some, if_pos (And.intro (row?_some hr).2 hprocessing)]

/-- Finishing a plan keeps ids distinct. -/
theorem keyed_finish {s s' : Store} (hs : s.Keyed) {id : Text} {texts : List Text}
    {f : PlanRow → PlanRow} {took : Bool} (hf : ∀ r, (f r).id = r.id)
    (h : s.finish id texts f = .ok (s', took)) : s'.Keyed := by
  rw [(finish_ok h).1]
  exact keyed_mapRows hs fun r => by split <;> simp [hf]

/-- Whether a plan can be finished does not depend on what the rows of the table hold. -/
theorem finish_mapRows {s : Store} {id : Text} {texts : List Text} {f : PlanRow → PlanRow}
    {done : Store × Bool} (h : s.finish id texts f = .ok done) (g : PlanRow → PlanRow) :
    ∃ done', (s.mapRows g).finish id texts f = .ok done' := by
  unfold finish at h ⊢
  simp only [bind_eq_ok] at h ⊢
  obtain ⟨rows, hrows, _, hencodable, -⟩ := h
  have hplans := rowsOf_plans (mapError_eq_ok.mp hrows)
  have hmapped : rowsOf .plans (s.mapRows g).plans = .ok (rows.map g) := by
    rw [mapRows, hplans, Option.map_some, rowsOf]
  exact ⟨_, rows.map g, mapError_eq_ok.mpr hmapped, (), hencodable, rfl⟩

/-- Completing a plan finishes it with its next start. -/
theorem markCompleted_ok {s : Store} {id : Text} {next : Option Stamp} {now : Stamp}
    {done : Store × Bool} (h : s.markCompleted id next now = .ok done) :
    ∃ next' now', instantOf? next = .ok next' ∧ instantOf now = .ok now' ∧
      s.finish id [] (PlanRow.complete next' now') = .ok done := by
  unfold markCompleted at h
  simp only [bind_eq_ok] at h
  obtain ⟨next', hnext, now', hnow, h⟩ := h
  exact ⟨next', now', hnext, hnow, h⟩

/-- Recording a failure finishes the plan with its message. -/
theorem markFailed_ok {s : Store} {id message : Text} {now : Stamp} {done : Store × Bool}
    (h : s.markFailed id message now = .ok done) :
    ∃ now', instantOf now = .ok now' ∧
      s.finish id [message] (PlanRow.fail message now') = .ok done := by
  unfold markFailed at h
  exact bind_eq_ok.mp h

/-! ## Putting a plan back on the schedule -/

/-- A plan that may go back on the schedule is not being processed. -/
theorem ne_processing_of_isRequeueable {status : Plan.Status} (h : status.isRequeueable = true) :
    status ≠ .processing := by
  rintro rfl
  cases h

/-- Putting a plan back on the schedule rewrites its row if it failed or is completed, and returns
the plan as its row has become. -/
theorem requeuePlan_ok {s s' : Store} {id : Text} {startsAt : Option Stamp} {result : Option Plan}
    (h : s.requeuePlan id startsAt = .ok (s', result)) :
    ∃ start, instantOf? startsAt = .ok start ∧
      s' = s.mapRows (fun r =>
        if r.id = id ∧ r.status.isRequeueable = true then r.requeue start else r) ∧
      result = if s.planRows.any (fun r => r.id = id ∧ r.status.isRequeueable = true) then
        (s'.row? id).map PlanRow.toPlan else none := by
  unfold requeuePlan at h
  simp only [bind_eq_ok] at h
  obtain ⟨start, hstart, rows, hrows, -, -, h⟩ := h
  have hplans := rowsOf_plans hrows
  have hany : s.planRows.any (fun r => r.id = id ∧ r.status.isRequeueable = true) =
      rows.any (fun r => r.id = id && r.status.isRequeueable) := by
    simp [planRows, hplans]
  refine ⟨start, hstart, ?_⟩
  rw [hany]
  split at h
  · next happlies =>
    cases h
    rw [if_pos happlies]
    simp [mapRows, row?, planRows, hplans]
  · next happlies =>
    cases h
    rw [if_neg happlies]
    simp [mapRows, hplans]

/-- Putting a plan back on the schedule touches the row of no other plan. -/
theorem row?_requeuePlan_of_ne {s s' : Store} {id other : Text} {startsAt : Option Stamp}
    {result : Option Plan} (h : s.requeuePlan id startsAt = .ok (s', result))
    (hne : other ≠ id) : s'.row? other = s.row? other := by
  obtain ⟨start, -, hstore, -⟩ := requeuePlan_ok h
  rw [hstore, row?_mapRows s (fun r => by split <;> rfl)]
  cases hrow : s.row? other with
  | none => rfl
  | some r =>
    have hid : ¬(r.id = id ∧ r.status.isRequeueable = true) := fun ⟨hid, _⟩ =>
      hne ((row?_some hrow).2 ▸ hid)
    simp only [Option.map_some, if_neg hid]

/-- A plan that goes back on the schedule had failed or was completed, and is returned as its row
has become. -/
theorem row?_requeuePlan {s s' : Store} (hs : s.Keyed) {id : Text} {startsAt : Option Stamp}
    {p : Plan} (h : s.requeuePlan id startsAt = .ok (s', some p)) :
    ∃ r start, instantOf? startsAt = .ok start ∧ s.row? id = some r ∧
      r.status.isRequeueable = true ∧ s'.row? id = some (r.requeue start) ∧
      p = (r.requeue start).toPlan := by
  obtain ⟨start, hstart, hstore, hresult⟩ := requeuePlan_ok h
  split at hresult
  · next happlies =>
    obtain ⟨r, hmem, hr⟩ := List.any_eq_true.mp happlies
    obtain ⟨rfl, hrequeueable⟩ := of_decide_eq_true hr
    have hrow : s.row? r.id = some r := row?_of_mem hs hmem
    have hrow' : s'.row? r.id = some (r.requeue start) := by
      rw [hstore, row?_mapRows s (fun r => by split <;> rfl), hrow]
      exact congrArg some (if_pos ⟨rfl, hrequeueable⟩)
    rw [hrow', Option.map_some, Option.some.injEq] at hresult
    exact ⟨r, start, hstart, hrow, hrequeueable, hrow', hresult⟩
  · cases hresult

/-- A request to put a plan back on the schedule that finds nothing to do leaves the store
alone. -/
theorem requeuePlan_none {s s' : Store} {id : Text} {startsAt : Option Stamp}
    (h : s.requeuePlan id startsAt = .ok (s', none)) : s' = s := by
  obtain ⟨start, -, hstore, hresult⟩ := requeuePlan_ok h
  split at hresult
  · next happlies =>
    obtain ⟨r, hmem, hr⟩ := List.any_eq_true.mp happlies
    obtain ⟨rfl, -⟩ := of_decide_eq_true hr
    have hfound : (s'.row? r.id).isSome = true := by
      rw [hstore, row?_mapRows s (fun r => by split <;> rfl), Option.isSome_map]
      exact List.find?_isSome.mpr ⟨r, hmem, by simp⟩
    rw [← Option.isSome_map (f := PlanRow.toPlan), ← hresult] at hfound
    cases hfound
  · next happlies =>
    rw [hstore]
    refine mapRows_eq_self fun r hr => if_neg ?_
    have hnone := List.any_eq_false.mp (Bool.eq_false_iff.mpr happlies) r hr
    simpa using hnone

/-- Putting a plan back on the schedule keeps ids distinct. -/
theorem keyed_requeuePlan {s s' : Store} (hs : s.Keyed) {id : Text} {startsAt : Option Stamp}
    {result : Option Plan} (h : s.requeuePlan id startsAt = .ok (s', result)) : s'.Keyed := by
  obtain ⟨start, -, hstore, -⟩ := requeuePlan_ok h
  rw [hstore]
  exact keyed_mapRows hs fun r => by split <;> rfl

end Store

end Showrunner
