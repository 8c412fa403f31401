import Showrunner.Proofs.Dispatch.Escape

/-!
# What runs keep

A property of a state that every operation of a host keeps is kept by a run, whatever plans are
claimed and however they end, also by one that does not come back. On a stage a run comes to the
store only by claims and by finishing plans, so it keeps what these keep.
-/

namespace Showrunner

namespace Dispatch

variable {σ : Type}

/-- Every operation of a host keeps a property of its state. -/
structure Host.Keeps (host : Host σ) (P : σ → Prop) : Prop where
  claim : ∀ limit now staleAfter s, P s → P (host.claim limit now staleAfter s).1
  render : ∀ p s, P s → P (host.render p s).1
  complete : ∀ id next now s, P s → P (host.complete id next now s).1
  fail : ∀ id message now s, P s → P (host.fail id message now s).1
  warn : ∀ message s, P s → P (host.warn message s)

variable {host : Host σ} {P : σ → Prop} {s : σ}

/-- Recording a failure keeps the property. -/
theorem Host.Keeps.recordFailure (h : host.Keeps P) (p : Plan) (fault : Fault) (hs : P s) :
    P (Dispatch.recordFailure host p fault s).1 := by
  let warned := host.warn (text "Plan " ++ p.id ++ text " failed: " ++ fault.shown) s
  have hwarned : P warned := h.warn _ s hs
  have hfailed := h.fail p.id (text "Dispatch failed: " ++ fault.shown) (host.now warned) warned hwarned
  unfold Dispatch.recordFailure
  dsimp only
  split
  · next hdone => rwa [hdone] at hfailed
  · next hdone =>
    rw [hdone] at hfailed
    exact h.warn _ _ hfailed

/-- Finishing a plan keeps the property. -/
theorem Host.Keeps.settle (h : host.Keeps P) (p : Plan) (found : Except Fault (Option Stamp))
    (hs : P s) : P (Dispatch.settle host p found s).1 := by
  rcases found with fault | next
  · exact h.recordFailure p fault hs
  · have hcompleted := h.complete p.id next (host.now s) s hs
    rw [Dispatch.settle]
    rcases hdone : host.complete p.id next (host.now s) s with ⟨s', fault | _ | _⟩ <;>
      rw [hdone] at hcompleted
    · exact h.recordFailure p fault hcompleted
    · exact h.warn _ _ hcompleted
    · exact hcompleted

/-- Working through a plan keeps the property. -/
theorem Host.Keeps.runPlan (h : host.Keeps P) (p : Plan) (hs : P s) :
    P (Dispatch.runPlan host p s).1 := by
  have hattempted : P (attempt host p s).1 := by
    have hrendered := h.render p s hs
    rw [attempt]
    split <;> next hdone => rwa [hdone] at hrendered
  rw [Dispatch.runPlan]
  split
  · next hdone => rwa [hdone] at hattempted
  · next hdone =>
    rw [hdone] at hattempted
    exact h.settle p _ hattempted

/-- Working through plans keeps the property. -/
theorem Host.Keeps.runPlans (h : host.Keeps P) (plans : List Plan) (hs : P s) :
    P (Dispatch.runPlans host plans s).1 := by
  induction plans generalizing s with
  | nil => exact hs
  | cons p rest ih =>
    have hfirst := h.runPlan p hs
    rw [Dispatch.runPlans]
    split
    · next hdone => rwa [hdone] at hfirst
    · next hdone =>
      rw [hdone] at hfirst
      exact ih hfirst

/-- A run keeps the property. -/
theorem Host.Keeps.run (h : host.Keeps P) (limit : Int) (staleAfter : Option Int) (hs : P s) :
    P (Dispatch.run host limit staleAfter s).1 := by
  have hclaimed := h.claim limit (host.now s) staleAfter s hs
  rw [Dispatch.run]
  split
  · next hdone => rwa [hdone] at hclaimed
  · next hdone =>
    rw [hdone] at hclaimed
    exact h.runPlans _ hclaimed

end Dispatch

namespace Web

open Store

variable {σ : Type} {outer : Surroundings σ} {P : Store → Prop}

/-- A property that claims and finished plans keep is kept on a stage. -/
theorem keeps_host
    (hclaim : ∀ {s : Store} {limit now staleAfter claimed}, P s →
      s.claim limit now staleAfter = .ok claimed → P claimed.store)
    (hcomplete : ∀ {s s' : Store} {id next now took}, P s →
      s.markCompleted id next now = .ok (s', took) → P s')
    (hfail : ∀ {s s' : Store} {id message now took}, P s →
      s.markFailed id message now = .ok (s', took) → P s') :
    (host outer).Keeps fun s => P s.studio.store := by
  have hkeep : ∀ {s : Stage σ} {done : Except Fault (Store × Bool)}, P s.studio.store →
      (∀ s' took, done = .ok (s', took) → P s') → P (s.studio.keep done).1.store := by
    intro s done hs hdone
    cases done with
    | error fault => exact hs
    | ok result => exact hdone result.1 result.2 rfl
  exact
    { claim := fun limit now staleAfter s hs => by
        change P (s.claim limit now staleAfter).1.studio.store
        rw [Stage.claim]
        split
        · next hclaimed => exact hclaim hs hclaimed
        · exact hs
      render := fun p s hs => hs
      complete := fun id next now s hs => hkeep hs fun _ _ hdone => hcomplete hs hdone
      fail := fun id message now s hs => hkeep hs fun _ _ hdone => hfail hs hdone
      warn := fun _ _ hs => hs }

/-- A property that rewriting the rows of plans keeps is kept on a stage. -/
theorem keeps_host_of_mapRows (h : ∀ (s : Store) (g : PlanRow → PlanRow), P s → P (s.mapRows g)) :
    (host outer).Keeps fun s => P s.studio.store := by
  refine keeps_host (fun hs hclaimed => ?_) (fun hs hdone => ?_) fun hs hdone => ?_
  · obtain ⟨g, time, -, hstore, -⟩ := claim_rewrites hclaimed
    exact hstore ▸ h _ _ hs
  · obtain ⟨next', now', -, -, hfinish⟩ := markCompleted_ok hdone
    exact (finish_ok hfinish).1 ▸ h _ _ hs
  · obtain ⟨now', -, hfinish⟩ := markFailed_ok hdone
    exact (finish_ok hfinish).1 ▸ h _ _ hs

variable (outer) in
/-- A run leaves the workflows and the captured events alone. -/
theorem tables_run (s : Stage σ) (limit : Int) (staleAfter : Option Int) :
    (Dispatch.run (host outer) limit staleAfter s).1.studio.store.workflows =
        s.studio.store.workflows ∧
      (Dispatch.run (host outer) limit staleAfter s).1.studio.store.events = s.studio.store.events :=
  (keeps_host_of_mapRows (P := fun store => store.workflows = s.studio.store.workflows ∧
    store.events = s.studio.store.events) fun _ _ h => h).run limit staleAfter ⟨rfl, rfl⟩

end Web

end Showrunner
