import Showrunner.Proofs.Store.Operations
import Showrunner.Recurrence.DateText
import Showrunner.Web.Plans

/-!
# What a run leaves

A run that nothing interferes with is one claim and then one write for each claimed plan. What is
written depends on what came of that plan alone: the reply of the renderer and the next occurrence
of its rule. The writes touch different rows, so the run leaves the row of each claimed plan as its
own outcome says, in whatever company it was claimed, and every other row as it was.

Nothing comes of a plan if the search for its next start never ends. A run does not come back from
such a plan.
-/

namespace Showrunner

namespace Store

/-- A plan as a run leaves it: scheduled for its next start, completed if there is none, or failed. -/
def PlanRow.settle (time : Wall) (outcome : Except Fault (Option Wall)) (r : PlanRow) : PlanRow :=
  match outcome with
  | .ok (some start) =>
      { r with
        status := .scheduled
        startsAt := start
        lastRunAt := some time
        lastError := none
        claimedAt := none }
  | .ok none =>
      { r with
        status := .completed
        lastRunAt := some time
        lastError := none
        claimedAt := none }
  | .error fault =>
      { r with
        status := .failed
        lastRunAt := some time
        lastError := some (text "Dispatch failed: " ++ fault.shown)
        claimedAt := none }

/-- Write what came of a plan. -/
def record (s : Store) (now : Stamp) (id : Text) :
    Except Fault (Option Wall) → Except Fault (Store × Bool)
  | .ok next => s.markCompleted id (next.map Stamp.utc) now
  | .error fault => s.markFailed id (text "Dispatch failed: " ++ fault.shown) now

variable {s s' : Store} {now : Stamp} {id : Text} {outcome : Except Fault (Option Wall)}
  {took : Bool}

end Store

namespace Dispatch

open Recurrence (Dates)
open Store (instantOf)
open Web (Surroundings Stage)

/-- What comes of a plan whose renderer gives a reply: its next start, that it has none, or what
went wrong. Nothing comes of it if the search for its next start never ends. -/
def outcome (dates : Dates) (reply : Except Fault Json) (p : Plan) :
    Option (Except Fault (Option Wall)) :=
  match reply with
  | .error fault => some (.error fault)
  | .ok _ =>
      match Recurrence.advance dates p.startsAt p.rrule p.anchorAt with
      | .error fault => some (.error fault)
      | .ok (.next t) => some ((instantOf t).map some)
      | .ok .last => some (.ok none)
      | .ok .ignored => some (.ok none)
      | .ok .endless => none

/-- How the run of a plan ends that comes to an outcome. -/
def ending : Except Fault (Option Wall) → Plan.Ending
  | .ok _ => .success
  | .error _ => .failed

/-- A stage with another store. -/
def withStore {σ : Type} (s : Stage σ) (store : Store) : Stage σ :=
  { s with studio := { s.studio with store := store } }

variable {σ : Type} {outer : Surroundings σ} {now : Stamp} {dates : Dates}
  {reply : Plan → Except Fault Json}

/-- What the attempt of a plan finds whose renderer gives a reply. -/
def sought (dates : Dates) (reply : Except Fault Json) (p : Plan) :
    Option (Except Fault (Option Stamp)) :=
  match reply with
  | .error fault => some (.error fault)
  | .ok _ => nextStart dates p

/-- A row of a plan that starts at an hour, and perhaps recurs. -/
def rowAt (id : String) (hour : Nat) (rule : Option Text) : Store.PlanRow :=
  .new (text id) (Store.sampleDraft (.ofHours hour) rule) (Stamp.ofHours hour).wall
    (Stamp.ofHours 0).wall

/-- A plan that recurs daily and two that run once, due at the second hour. -/
def dueAtTwo : List Store.PlanRow :=
  [rowAt "a" 1 (some (text "FREQ=DAILY")), rowAt "b" 1 none, rowAt "c" 1 none]

/-- A stage with these plans and one that is due later. -/
def assorted : Stage Nat :=
  withStore ⟨Studio.empty (.empty [] 0), 0⟩
    { Store.empty with plans := some (dueAtTwo ++ [rowAt "d" 30 none]) }

/-- A renderer that fails for one plan without saying why. -/
def faltering (p : Plan) : Except Fault Json :=
  if p.id = text "c" then .error (.timeout []) else .ok .null

/-- The reading of dates at the second hour. -/
def datesAtTwo : Dates := .on (Stamp.ofHours 2).wall.date

/-- The second hour, with a renderer that counts its calls. -/
def secondHour : Surroundings Nat :=
  ⟨fun _ => .ofHours 2, fun _ => datesAtTwo, fun p calls => (calls + 1, faltering p)⟩

/-- The plans that are due at the second hour are found in the order of their rows. -/
theorem dueRows_assorted :
    Store.dueRows assorted.studio.store.planRows 20 (Stamp.ofHours 2).wall none = dueAtTwo := by
  rw [Store.dueRows_of_pairwise (by decide +kernel)]
  decide +kernel

/-- Different plans have different ids among these. -/
theorem keyed_assorted : assorted.studio.store.Keyed := by
  unfold Store.Keyed
  decide +kernel

/-- What a claim at the second hour leaves. -/
def claimAtTwo : Store.Claimed := assorted.studio.store.taking dueAtTwo (Stamp.ofHours 2).wall

/-- A claim at the second hour takes the plans that are due then. -/
theorem claim_atTwo : assorted.studio.store.claim 20 (.ofHours 2) none = .ok claimAtTwo :=
  Store.claim_of_due keyed_assorted rfl (by decide) (by decide) rfl (Store.instantOf_utc _)
    dueRows_assorted (by decide)

end Dispatch

end Showrunner
