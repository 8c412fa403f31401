import Showrunner.Proofs.Store.Operations

/-!
# The life of a plan row

A row is added when its plan is created and is rewritten in place from then on. It says since when
its plan is claimed exactly while the plan is being processed, and why it failed exactly if it did, and
once a plan has failed or was completed its row says when it last ran. What the plan was created with
stays as it was. Every operation leaves the rows so, whether it succeeds, finds nothing to do or fails.
-/

namespace Showrunner

namespace Store

/-- What a row says of a claim, a failure and the last run fits the status of its plan. -/
structure PlanRow.Coherent (r : PlanRow) : Prop where
  claimed : r.claimedAt.isSome ↔ r.status = .processing
  failed : r.lastError.isSome ↔ r.status = .failed
  ran : r.status = .completed ∨ r.status = .failed → r.lastRunAt.isSome

/-- What a plan is created with and keeps: its id, what is to be rendered and for whom, its rule, and
the instant of its creation. -/
structure Origin where
  id : Text
  userId : Text
  influencerId : Text
  lookId : Text
  prompt : Text
  title : Option Text
  rrule : Option Text
  createdAt : Int
deriving DecidableEq, Repr

/-- What a plan that is created from a draft keeps. -/
def Origin.ofDraft (id : Text) (draft : Plan.Draft) (now : Stamp) : Origin :=
  { id := id
    userId := draft.userId
    influencerId := draft.influencerId
    lookId := draft.lookId
    prompt := draft.prompt
    title := draft.title
    rrule := draft.rrule
    createdAt := now.instant }

/-- What a row shows of the creation of its plan. -/
def PlanRow.origin (r : PlanRow) : Origin :=
  { id := r.id
    userId := r.userId
    influencerId := r.influencerId
    lookId := r.lookId
    prompt := r.prompt
    title := r.title
    rrule := r.rrule
    createdAt := (Stamp.utc r.createdAt).instant }

/-- What the plan is created with, if the entry creates one. -/
def Entry.origin? : Entry → Option Origin
  | ⟨.create id draft now, .created _⟩ => some (.ofDraft id draft now)
  | _ => none

/-! ## What a row says fits its status -/

/-- A scheduled plan has a row that fits its status if the row says of no claim and no failure. -/
theorem PlanRow.coherent_scheduled {r : PlanRow} (hstatus : r.status = .scheduled)
    (hclaimed : r.claimedAt = none) (herror : r.lastError = none) : r.Coherent where
  claimed := by simp [hstatus, hclaimed]
  failed := by simp [hstatus, herror]
  ran := by simp [hstatus]

/-- A new row fits the status of its plan. -/
theorem PlanRow.coherent_new (id : Text) (draft : Plan.Draft) (startsAt createdAt : Wall) :
    (PlanRow.new id draft startsAt createdAt).Coherent := coherent_scheduled rfl rfl rfl

/-- A plan that is due and then claimed has a row that fits its status. -/
theorem PlanRow.Coherent.claim {r : PlanRow} (hr : r.Coherent) {time : Wall} {before : Option Wall}
    (hdue : r.isDue time before = true) : (r.claim time).Coherent where
  claimed := by simp [PlanRow.claim]
  failed := by
    have hstatus : r.status ≠ .failed := by
      rcases status_of_isDue hdue with h | h <;> simp [h]
    simpa [PlanRow.claim, hstatus] using hr.failed
  ran := by simp [PlanRow.claim]

/-- A plan that was completed has a row that fits its status. -/
theorem PlanRow.coherent_complete (next : Option Wall) (now : Wall) (r : PlanRow) :
    (r.complete next now).Coherent where
  claimed := by cases next <;> simp [PlanRow.complete]
  failed := by cases next <;> simp [PlanRow.complete]
  ran := by simp [PlanRow.complete]

/-- A plan that failed has a row that fits its status. -/
theorem PlanRow.coherent_fail (message : Text) (now : Wall) (r : PlanRow) :
    (r.fail message now).Coherent where
  claimed := by simp [PlanRow.fail]
  failed := by simp [PlanRow.fail]
  ran := by simp [PlanRow.fail]

/-- A plan that is put back on the schedule has a row that fits its status. -/
theorem PlanRow.coherent_requeue (start : Option Wall) (r : PlanRow) :
    (r.requeue start).Coherent := coherent_scheduled rfl rfl rfl

/-- No entry brings a row out of line with the status of its plan. -/
theorem RowChange.coherent {entry : Entry} {id : Text} {row row' : Option PlanRow}
    (h : RowChange id entry row row') (hrow : ∀ r ∈ row, r.Coherent) : ∀ r' ∈ row', r'.Coherent := by
  cases h with
  | kept => exact hrow
  | created => exact fun r' hr' => Option.some.inj hr' ▸ PlanRow.coherent_new _ _ _ _
  | claimed _ _ hdue _ => exact fun r' hr' => Option.some.inj hr' ▸ (hrow _ rfl).claim hdue
  | completed => exact fun r' hr' => Option.some.inj hr' ▸ PlanRow.coherent_complete _ _ _
  | failed => exact fun r' hr' => Option.some.inj hr' ▸ PlanRow.coherent_fail _ _ _
  | requeued => exact fun r' hr' => Option.some.inj hr' ▸ PlanRow.coherent_requeue _ _

/-- Every operation leaves rows that fit the status of their plans. -/
theorem coherent_perform {s : Store} (hs : s.Keyed) (hrows : ∀ r ∈ s.planRows, r.Coherent)
    (op : Operation) : ∀ r ∈ (op.perform s).1.planRows, r.Coherent := by
  intro r hr
  refine (rowChange_perform hs op r.id).coherent (fun r₀ hr₀ => ?_) r ?_
  · exact hrows r₀ (row?_some hr₀).1
  · exact row?_of_mem (keyed_perform hs op) hr

/-- Every run leaves rows that fit the status of their plans. -/
theorem coherent_runs {s s' : Store} {entries : List Entry} (hs : s.Keyed)
    (hrows : ∀ r ∈ s.planRows, r.Coherent) (h : Runs s entries s') :
    ∀ r ∈ s'.planRows, r.Coherent := by
  induction h with
  | nil s => exact hrows
  | cons op _ ih => exact ih (keyed_perform hs op) (coherent_perform hs hrows op)

/-! ## What a plan was created with stays -/

/-- A new row shows what its plan is created with. -/
theorem PlanRow.origin_new {id : Text} {draft : Plan.Draft} {now : Stamp} {startsAt createdAt : Wall}
    (h : instantOf now = .ok createdAt) :
    (PlanRow.new id draft startsAt createdAt).origin = .ofDraft id draft now := by
  simp only [PlanRow.origin, PlanRow.new, Origin.ofDraft, Stamp.instant_utc, instantOf_ok h]

/-- A completed run leaves what its plan was created with alone. -/
@[simp] theorem PlanRow.origin_complete (next : Option Wall) (now : Wall) (r : PlanRow) :
    (r.complete next now).origin = r.origin := rfl

/-- A failed run leaves what its plan was created with alone. -/
@[simp] theorem PlanRow.origin_fail (message : Text) (now : Wall) (r : PlanRow) :
    (r.fail message now).origin = r.origin := rfl

/-- What an entry does to the table: it rewrites rows, which keep what their plans were created with,
or adds the row of a plan that it creates. -/
inductive TableChange (s : Store) : Entry → Store → Prop
  | rewritten {entry : Entry} {s' : Store} {g : PlanRow → PlanRow} (horigin : entry.origin? = none)
      (hg : ∀ r, (g r).origin = r.origin) (hs' : s' = s.mapRows g) : TableChange s entry s'
  | added {id : Text} {draft : Plan.Draft} {now : Stamp} {s' : Store} {p : Plan}
      (hcreate : s.createPlan id draft now = .ok (s', p)) :
      TableChange s ⟨.create id draft now, .created p⟩ s'

/-- An operation does to the table what its success does; its fault does nothing. -/
theorem tableChange_told {α : Type} {s : Store} {op : Operation} {tell : α → Outcome}
    {done : Except Fault (Store × α)}
    (hdone : ∀ s' a, done = .ok (s', a) → TableChange s ⟨op, tell a⟩ s') :
    TableChange s ⟨op, (told s tell done).2⟩ (told s tell done).1 := by
  cases done with
  | error fault =>
    have hrefused : Entry.origin? ⟨op, .refused fault⟩ = none := by cases op <;> rfl
    exact .rewritten (g := id) hrefused (fun _ => rfl) (mapRows_eq_self fun _ _ => rfl).symm
  | ok result => exact hdone result.1 result.2 rfl

/-- Finishing a plan rewrites rows. -/
theorem tableChange_finish {s s' : Store} {op : Operation} {id : Text} {texts : List Text}
    {f : PlanRow → PlanRow} {took : Bool} (hf : ∀ r, (f r).origin = r.origin)
    (horigin : Entry.origin? ⟨op, .finished took⟩ = none)
    (h : s.finish id texts f = .ok (s', took)) : TableChange s ⟨op, .finished took⟩ s' :=
  .rewritten horigin (fun r => by split <;> simp [hf]) (finish_ok h).1

/-- Every operation does to the table what an entry can do. -/
theorem tableChange_perform (s : Store) (op : Operation) :
    TableChange s ⟨op, (op.perform s).2⟩ (op.perform s).1 := by
  cases op with
  | create id draft now => exact tableChange_told fun s' p h => .added h
  | claim limit now staleAfter =>
    refine tableChange_told fun s' plans h => ?_
    obtain ⟨claimed, hclaimed, hresult⟩ := map_eq_ok.mp h
    cases hresult
    obtain ⟨g, time, hg, hstore, -⟩ := claim_rewrites hclaimed
    exact .rewritten rfl (fun r => by rcases hg r with h | h <;> rw [h]; rfl) hstore
  | complete id next now =>
    refine tableChange_told fun s' took h => ?_
    obtain ⟨next', now', -, -, hfinish⟩ := markCompleted_ok h
    exact tableChange_finish (PlanRow.origin_complete next' now') rfl hfinish
  | fail id message now =>
    refine tableChange_told fun s' took h => ?_
    obtain ⟨now', -, hfinish⟩ := markFailed_ok h
    exact tableChange_finish (PlanRow.origin_fail message now') rfl hfinish
  | requeue id startsAt =>
    refine tableChange_told fun s' result h => ?_
    obtain ⟨start, -, hstore, -⟩ := requeuePlan_ok h
    exact .rewritten rfl (fun r => by split <;> rfl) hstore

/-- Every operation keeps the rows and what their plans were created with, and adds a row for the plan
that it creates. -/
theorem TableChange.map_origin {s s' : Store} {entry : Entry} (h : TableChange s entry s') :
    s'.planRows.map PlanRow.origin =
      s.planRows.map PlanRow.origin ++ entry.origin?.toList := by
  cases h with
  | rewritten horigin hg hs' =>
    rw [hs', planRows_mapRows, List.map_map, horigin, Option.toList_none, List.append_nil]
    exact List.map_congr_left fun r _ => hg r
  | added hcreate =>
    obtain ⟨startsAt, createdAt, -, hcreated, -, hrows, -⟩ := createPlan_ok hcreate
    rw [hrows, List.map_append, List.map_singleton, PlanRow.origin_new hcreated]
    rfl

/-- Every run keeps the rows and what their plans were created with, and adds a row for each plan that
it creates. -/
theorem map_origin_runs {s s' : Store} {entries : List Entry} (h : Runs s entries s') :
    s'.planRows.map PlanRow.origin =
      s.planRows.map PlanRow.origin ++ entries.filterMap Entry.origin? := by
  induction h with
  | nil s => exact (List.append_nil _).symm
  | cons op _ ih =>
    rw [ih, (tableChange_perform _ op).map_origin, List.append_assoc]
    congr 1
    cases horigin : Entry.origin? ⟨op, (op.perform _).2⟩ with
    | none => rw [List.filterMap_cons_none horigin, Option.toList_none, List.nil_append]
    | some origin => rw [List.filterMap_cons_some horigin, Option.toList_some, List.singleton_append]

/-- In every store that a run of operations leads to, each row fits the status of its plan. There is
one row for each plan that was created, in the order of creation and with distinct ids, and each row
shows what its plan was created with. -/
theorem rows_of_runs {s : Store} {entries : List Entry} (hrun : Runs empty entries s) :
    (∀ r ∈ s.planRows, r.Coherent) ∧
    (s.planRows.map PlanRow.id).Nodup ∧
    s.planRows.map PlanRow.origin = entries.filterMap Entry.origin? := by
  have hempty : ∀ r ∈ empty.planRows, r.Coherent := fun r hr => nomatch hr
  exact ⟨coherent_runs keyed_empty hempty hrun, keyed_runs keyed_empty hrun, map_origin_runs hrun⟩

/-- Of two plans the one fails and is put back on the schedule while the other is claimed; creating the
first again and finishing it once more change nothing. -/
theorem rows_of_two_plans :
    let draft := sampleDraft (.ofHours 1) none
    let ops : List Operation :=
      [.create (text "a") draft (.ofHours 0), .claim 20 (.ofHours 2) none,
        .create (text "b") draft (.ofHours 2), .fail (text "a") [] (.ofHours 3),
        .create (text "a") draft (.ofHours 3), .claim 20 (.ofHours 4) (some 3600000000),
        .requeue (text "a") none, .complete (text "a") none (.ofHours 5)]
    let s := ops.foldl (fun s op => (op.perform s).1) empty
    s.planRows.map (·.status) = [.scheduled, .processing] ∧
    (∀ r ∈ s.planRows, r.Coherent) ∧
    s.planRows.map PlanRow.origin =
      [.ofDraft (text "a") draft (.ofHours 0), .ofDraft (text "b") draft (.ofHours 2)] := by
  intro draft ops s
  have hrun := Runs.cons (s := empty) (.create (text "a") draft (.ofHours 0))
    (.cons (.claim 20 (.ofHours 2) none) (.cons (.create (text "b") draft (.ofHours 2))
      (.cons (.fail (text "a") [] (.ofHours 3)) (.cons (.create (text "a") draft (.ofHours 3))
        (.cons (.claim 20 (.ofHours 4) (some 3600000000)) (.cons (.requeue (text "a") none)
          (.cons (.complete (text "a") none (.ofHours 5)) (.nil _))))))))
  obtain ⟨hcoherent, -, horigins⟩ := rows_of_runs hrun
  exact ⟨by decide +kernel, hcoherent, horigins.trans (by decide +kernel)⟩

end Store

end Showrunner
