import Showrunner.Proofs.Store.Rows

/-!
# Operations on the rows of some plans

Finishing a plan reads and writes the row of that plan and no other. What is put together of such
operations works on the rows of the plans that its parts work on, and two operations that work on
different plans commute: whichever comes first, each gives the answer that it gives alone, and they
leave the same store.
-/

namespace Showrunner

namespace Store

/-- A rewriting of rows that leaves the rows of other plans alone, and every id. -/
structure Touches (ids : List Text) (g : PlanRow → PlanRow) : Prop where
  id : ∀ r, (g r).id = r.id
  others : ∀ r, r.id ∉ ids → g r = r

/-- An operation that writes the rows of some plans only, and sees no other row. -/
structure WorksOn {α : Type} (ids : List Text) (op : Store → Store × α) : Prop where
  writes : ∀ s, ∃ g, Touches ids g ∧ (op s).1 = s.mapRows g
  sees : ∀ s g others, Touches others g → ids.Disjoint others →
    op (s.mapRows g) = ((op s).1.mapRows g, (op s).2)

/-- Keep the store that an operation leaves; one that fails leaves the store alone. -/
def keep {α : Type} (s : Store) : Except Fault (Store × α) → Store × Except Fault α
  | .ok (s', a) => (s', .ok a)
  | .error fault => (s, .error fault)

variable {α β : Type} {ids others : List Text} {id : Text} {f g : PlanRow → PlanRow}

/-- Rewriting nothing touches no plan. -/
theorem touches_self : Touches ids fun r => r := ⟨fun _ => rfl, fun _ _ => rfl⟩

/-- Two rewritings touch what each of them touches. -/
theorem Touches.comp (hf : Touches ids f) (hg : Touches ids g) : Touches ids (f ∘ g) := by
  refine ⟨fun r => (hf.id (g r)).trans (hg.id r), fun r hr => ?_⟩
  have hsame : g r = r := hg.others r hr
  rw [Function.comp_apply, hsame, hf.others r hr]

/-- A rewriting that touches few plans touches no more than many. -/
theorem Touches.mono (hg : Touches ids g) (hsub : ids ⊆ others) : Touches others g :=
  ⟨hg.id, fun r hr => hg.others r fun hmem => hr (hsub hmem)⟩

/-- Rewritings that touch different plans commute on every row. -/
theorem Touches.comm (hf : Touches ids f) (hg : Touches others g) (hdisj : ids.Disjoint others)
    (r : PlanRow) : f (g r) = g (f r) := by
  by_cases hr : r.id ∈ ids
  · have hother : r.id ∉ others := fun hmem => hdisj hr hmem
    have hother' : (f r).id ∉ others := (hf.id r).symm ▸ hother
    rw [hg.others r hother, hg.others (f r) hother']
  · have hr' : (g r).id ∉ ids := (hg.id r).symm ▸ hr
    rw [hf.others r hr, hf.others (g r) hr']

/-- Rewriting twice is rewriting with both in turn. -/
theorem mapRows_mapRows (s : Store) (f g : PlanRow → PlanRow) :
    (s.mapRows g).mapRows f = s.mapRows (f ∘ g) := by
  cases s with
  | mk workflows plans events => cases plans <;> simp [mapRows]

/-- Rewritings that touch different plans commute. -/
theorem mapRows_comm (s : Store) (hf : Touches ids f) (hg : Touches others g)
    (hdisj : ids.Disjoint others) : (s.mapRows g).mapRows f = (s.mapRows f).mapRows g := by
  rw [mapRows_mapRows, mapRows_mapRows]
  exact congrArg s.mapRows (funext (hf.comm hg hdisj))

/-- Giving an answer without looking works on no row. -/
theorem worksOn_pure (a : α) : WorksOn ids fun s => (s, a) :=
  ⟨fun _ => ⟨fun r => r, touches_self, (mapRows_eq_self fun _ _ => rfl).symm⟩, fun _ _ _ _ _ => rfl⟩

/-- An operation that works on few rows works on no more than many. -/
theorem WorksOn.mono {op : Store → Store × α} (h : WorksOn ids op) (hsub : ids ⊆ others) :
    WorksOn others op := by
  refine ⟨fun s => ?_, fun s g ids' hg hdisj => ?_⟩
  · obtain ⟨g, hg, hwrites⟩ := h.writes s
    exact ⟨g, hg.mono hsub, hwrites⟩
  · exact h.sees s g ids' hg fun _ hmem => hdisj (hsub hmem)

/-- Two operations in turn, the second of which knows the answer of the first, work on the rows that
each of them works on. -/
theorem WorksOn.bind {op : Store → Store × α} {next : α → Store → Store × β} (hop : WorksOn ids op)
    (hnext : ∀ a, WorksOn ids (next a)) : WorksOn ids fun s => next (op s).2 (op s).1 := by
  refine ⟨fun s => ?_, fun s g others hg hdisj => ?_⟩
  · obtain ⟨g, hg, hwrites⟩ := hop.writes s
    obtain ⟨g', hg', hwrites'⟩ := (hnext (op s).2).writes (op s).1
    refine ⟨g' ∘ g, hg'.comp hg, ?_⟩
    rw [hwrites', hwrites, mapRows_mapRows]
  · simp only [hop.sees s g others hg hdisj]
    exact (hnext (op s).2).sees (op s).1 g others hg hdisj

/-- Saying the answer of an operation otherwise works on its rows. -/
theorem WorksOn.map {op : Store → Store × α} (h : WorksOn ids op) (tell : α → β) :
    WorksOn ids fun s => ((op s).1, tell (op s).2) :=
  h.bind fun a => worksOn_pure (tell a)

/-- An operation does what it does alone after another one that works on other rows, which may as well
come after it. -/
theorem WorksOn.comm {first : Store → Store × α} {second : Store → Store × β}
    (hfirst : WorksOn ids first) (hsecond : WorksOn others second) (hdisj : ids.Disjoint others)
    (s : Store) : second (first s).1 = ((first (second s).1).1, (second s).2) := by
  obtain ⟨f, hf, hwrites⟩ := hfirst.writes s
  obtain ⟨g, hg, hwrites'⟩ := hsecond.writes s
  calc second (first s).1
      = ((second s).1.mapRows f, (second s).2) := by
        rw [hwrites, hsecond.sees s f ids hf (List.disjoint_comm.mp hdisj)]
    _ = ((first s).1.mapRows g, (second s).2) := by
        rw [hwrites, hwrites', mapRows_comm s hf hg hdisj]
    _ = ((first (second s).1).1, (second s).2) := by
        rw [hwrites', hfirst.sees s g others hg hdisj]

/-- Finishing a plan rewrites its row at most. -/
theorem touches_finish (hf : ∀ r, (f r).id = r.id) :
    Touches [id] fun r => if r.id = id ∧ r.status = .processing then f r else r := by
  refine ⟨fun r => ?_, fun r hr => if_neg fun happlies => ?_⟩
  · split
    · exact hf r
    · rfl
  · exact hr (List.mem_singleton.mpr happlies.1)

/-- A plan that cannot be finished cannot be finished for the same reason when rows change. -/
theorem finish_error_mapRows {s : Store} {texts : List Text} {fault : Fault}
    (h : s.finish id texts f = .error fault) (g : PlanRow → PlanRow) :
    (s.mapRows g).finish id texts f = .error fault := by
  cases s with
  | mk workflows plans events =>
    cases plans with
    | none => exact h
    | some rows =>
      change (encodable (texts ++ [id]) >>= fun _ => Except.ok _) = Except.error fault at h
      change (encodable (texts ++ [id]) >>= fun _ => Except.ok _) = Except.error fault
      cases hencodable : encodable (texts ++ [id]) with
      | error fault' =>
        rw [hencodable] at h
        cases h
        rfl
      | ok done =>
        rw [hencodable] at h
        cases h

/-- Whether there is a plan to finish does not depend on the rows of other plans. -/
theorem any_processing_mapRows (s : Store) (hg : Touches others g) (hid : id ∉ others) :
    (s.mapRows g).planRows.any (fun r => r.id = id ∧ r.status = .processing) =
      s.planRows.any fun r => r.id = id ∧ r.status = .processing := by
  have hsame : ∀ r : PlanRow, ((g r).id = id ∧ (g r).status = .processing) ↔
      (r.id = id ∧ r.status = .processing) := by
    intro r
    rw [hg.id r]
    refine and_congr_right fun hr => ?_
    rw [hg.others r (hr.symm ▸ hid)]
  rw [planRows_mapRows, List.any_map]
  congr 1
  funext r
  exact decide_eq_decide.mpr (hsame r)

/-- A plan is finished, or not, whatever happens to the rows of other plans. -/
theorem finish_mapRows_of_touches (s : Store) (texts : List Text) (hf : ∀ r, (f r).id = r.id)
    (hg : Touches others g) (hid : id ∉ others) :
    (s.mapRows g).finish id texts f = (s.finish id texts f).map fun done =>
      (done.1.mapRows g, done.2) := by
  cases hfinish : s.finish id texts f with
  | error fault => exact finish_error_mapRows hfinish g
  | ok done =>
    obtain ⟨⟨s', took'⟩, hfinish'⟩ := finish_mapRows hfinish g
    obtain ⟨hstore, htook⟩ := finish_ok hfinish
    obtain ⟨hstore', htook'⟩ := finish_ok hfinish'
    rw [mapRows_comm s (touches_finish hf) hg (List.singleton_disjoint.mpr hid), ← hstore]
      at hstore'
    rw [any_processing_mapRows s hg hid, ← htook] at htook'
    rw [hfinish', hstore', htook', Except.map]

/-- Finishing a plan works on its row. -/
theorem worksOn_finish (id : Text) (texts : List Text) (hf : ∀ r, (f r).id = r.id) :
    WorksOn [id] fun s => s.keep (s.finish id texts f) := by
  refine ⟨fun s => ?_, fun s g others hg hdisj => ?_⟩
  · cases hfinish : s.finish id texts f with
    | error fault => exact ⟨fun r => r, touches_self, (mapRows_eq_self fun _ _ => rfl).symm⟩
    | ok done => exact ⟨_, touches_finish hf, (finish_ok hfinish).1⟩
  · rw [finish_mapRows_of_touches s texts hf hg (List.singleton_disjoint.mp hdisj)]
    rcases s.finish id texts f with fault | done
    · rfl
    · rfl

/-- Completing a plan works on its row. -/
theorem worksOn_markCompleted (id : Text) (next : Option Stamp) (now : Stamp) :
    WorksOn [id] fun s => s.keep (s.markCompleted id next now) := by
  unfold markCompleted
  cases instantOf? next with
  | error fault => exact worksOn_pure (Except.error fault)
  | ok next' =>
    cases instantOf now with
    | error fault => exact worksOn_pure (Except.error fault)
    | ok now' => exact worksOn_finish id [] (PlanRow.id_complete next' now')

/-- Recording that a plan failed works on its row. -/
theorem worksOn_markFailed (id message : Text) (now : Stamp) :
    WorksOn [id] fun s => s.keep (s.markFailed id message now) := by
  unfold markFailed
  cases instantOf now with
  | error fault => exact worksOn_pure (Except.error fault)
  | ok now' => exact worksOn_finish id [message] (PlanRow.id_fail message now')

end Store

end Showrunner
