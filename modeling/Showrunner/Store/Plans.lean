import Showrunner.Store.Basic

/-!
# Content plans in the store

A claim moves the due plans, at most as many as asked for and the earliest first, to processing.
A plan is due when it is scheduled and its start has come, or when it has been processing since
before the staleness limit. The claim selects the due plans, then updates them one by one, each only
if it still has the status it was selected with, and at last selects the updated rows, all in one
transaction. Finishing a plan takes effect only while it is processing, and putting one back on the
schedule only after it failed or was completed.
-/

namespace Showrunner

namespace Store

/-- A stored plan as a plan. -/
def PlanRow.toPlan (r : PlanRow) : Plan :=
  { id := r.id
    userId := r.userId
    influencerId := r.influencerId
    lookId := r.lookId
    prompt := r.prompt
    title := r.title
    startsAt := Stamp.utc r.startsAt
    rrule := r.rrule
    status := r.status
    anchorAt := r.anchorAt.map Stamp.utc
    lastRunAt := r.lastRunAt.map Stamp.utc
    lastError := r.lastError
    claimedAt := r.claimedAt.map Stamp.utc
    createdAt := Stamp.utc r.createdAt }

/-- The row of a new plan: scheduled for its start, which is also its anchor. -/
def PlanRow.new (id : Text) (draft : Plan.Draft) (startsAt createdAt : Wall) : PlanRow :=
  { id := id
    userId := draft.userId
    influencerId := draft.influencerId
    lookId := draft.lookId
    prompt := draft.prompt
    title := draft.title
    startsAt := startsAt
    anchorAt := some startsAt
    rrule := draft.rrule
    status := .scheduled
    lastRunAt := none
    lastError := none
    claimedAt := none
    createdAt := createdAt }

/-- Create a plan. -/
def createPlan (s : Store) (id : Text) (draft : Plan.Draft) (now : Stamp) :
    Except Fault (Store × Plan) := do
  let startsAt ← instantOf draft.startsAt
  let createdAt ← instantOf now
  let rows ← rowsOf .plans s.plans
  encodable ([id, draft.userId, draft.influencerId, draft.lookId, draft.prompt] ++
    draft.title.toList ++ draft.rrule.toList)
  if rows.any (·.id = id) then .error (taken .plans)
  let row := PlanRow.new id draft startsAt createdAt
  pure ({ s with plans := some (rows ++ [row]) }, row.toPlan)

/-- Find a plan. -/
def getPlan (s : Store) (id : Text) : Except Fault (Option Plan) := do
  let rows ← rowsOf .plans s.plans
  encodable [id]
  pure ((rows.find? (·.id = id)).map PlanRow.toPlan)

/-- List the plans, or those of a status, by their start. -/
def listPlans (s : Store) (status : Option Plan.Status) : Except Fault (List Plan) := do
  let rows ← rowsOf .plans s.plans
  let kept := rows.filter fun r => status.all (r.status = ·)
  pure ((kept.mergeSort fun a b => a.startsAt ≤ b.startsAt).map PlanRow.toPlan)

/-- Decide whether a plan is due. -/
def PlanRow.isDue (now : Wall) (staleBefore : Option Wall) (r : PlanRow) : Bool :=
  (r.status = .scheduled && r.startsAt ≤ now) ||
    (r.status = .processing &&
      match staleBefore, r.claimedAt with
      | some before, some claimedAt => claimedAt ≤ before
      | _, _ => false)

/-- Order plans by their start, plans of one start by their id. -/
def PlanRow.comesFirst (a b : PlanRow) : Bool :=
  a.startsAt < b.startsAt || (a.startsAt = b.startsAt && Text.atMost a.id b.id)

/-- The due plans in the order in which they are claimed, at most `limit` of them. -/
def dueRows (rows : List PlanRow) (limit : Nat) (now : Wall) (staleBefore : Option Wall) :
    List PlanRow :=
  ((rows.filter (PlanRow.isDue now staleBefore)).mergeSort PlanRow.comesFirst).take limit

/-- A plan as its claim leaves it. -/
def PlanRow.claim (now : Wall) (r : PlanRow) : PlanRow :=
  { r with status := .processing, claimedAt := some now }

/-- A plan that a claim may take, as it was selected. -/
structure Candidate where
  id : Text
  status : Plan.Status

/-- A row as it is selected for a claim. -/
def PlanRow.candidate (r : PlanRow) : Candidate := ⟨r.id, r.status⟩

/-- Claim the rows that still have the id and the status of a candidate, and count them. -/
def swap (now : Wall) (c : Candidate) (rows : List PlanRow) : List PlanRow × Nat :=
  let applies (r : PlanRow) : Bool := r.id = c.id && r.status = c.status
  (rows.map fun r => if applies r then r.claim now else r, rows.countP applies)

/-- Claim one candidate after the other, and collect those of which a row has changed. -/
def swapAll (now : Wall) : List Candidate → List PlanRow → List PlanRow × List Candidate
  | [], rows => (rows, [])
  | c :: rest, rows =>
      let (rows, changed) := swap now c rows
      let (rows, taken) := swapAll now rest rows
      (rows, if 0 < changed then c :: taken else taken)

/-- The number of variables that a statement may have. -/
def variableLimit : Nat := 32766

/-- Say that a statement has more variables than it may have. -/
def tooManyVariables : Fault := .operational (text "too many SQL variables")

/-- Select the rows with one of the ids in the order of a claim. The statement has a variable for each id. -/
def rowsWithin (ids : List Text) (rows : List PlanRow) : Except Fault (List PlanRow) :=
  if variableLimit < ids.length then .error tooManyVariables
  else .ok ((rows.filter fun r => ids.contains r.id).mergeSort PlanRow.comesFirst)

/-- What a claim leaves: the store, the claimed plans, and those that were taken over from a run
that did not finish. -/
structure Claimed where
  store : Store
  plans : List Plan
  reclaimed : List Text

/-- The stamp before which a claim is stale; a duration of zero is no limit. -/
def staleBefore (now : Stamp) (staleAfter : Option Int) : Except Fault (Option Wall) :=
  match staleAfter with
  | none => .ok none
  | some duration =>
      if duration = 0 then .ok none
      else do
        let before ← now.add (-duration)
        pure (some (← instantOf before))

/-- Say that a claim could not run. -/
def claimFailure (f : Fault) : Fault :=
  match f with
  | .operational m | .integrity m => .claim (text "Could not claim due content plans: " ++ m)
  | f => f

/-- Claim the due plans: select the candidates, claim each of them that has not changed since, and
select the rows of those. Where the second selection fails nothing is changed. -/
def claim (s : Store) (limit : Int) (now : Stamp) (staleAfter : Option Int) : Except Fault Claimed :=
  if limit ≤ 0 then .ok ⟨s, [], []⟩
  else do
    let before ← staleBefore now staleAfter
    let now ← instantOf now
    let rows ← (rowsOf .plans s.plans).mapError claimFailure
    storable limit
    let candidates := (dueRows rows limit.toNat now before).map PlanRow.candidate
    let (rows, taken) := swapAll now candidates rows
    if taken.isEmpty then pure ⟨{ s with plans := some rows }, [], []⟩
    else do
      let claimed ← (rowsWithin (taken.map Candidate.id) rows).mapError claimFailure
      pure
        { store := { s with plans := some rows }
          plans := claimed.map PlanRow.toPlan
          reclaimed := (taken.filter (·.status = .processing)).map Candidate.id }

/-- Say that a plan could not be updated. -/
def updateFailure (id : Text) (f : Fault) : Fault :=
  match f with
  | .operational m | .integrity m =>
      .store (text "Could not update content plan " ++ id ++ text ": " ++ m)
  | f => f

/-- Change a plan that is being processed, and say whether there is one. -/
def finish (s : Store) (id : Text) (texts : List Text) (f : PlanRow → PlanRow) :
    Except Fault (Store × Bool) := do
  let rows ← (rowsOf .plans s.plans).mapError (updateFailure id)
  encodable (texts ++ [id])
  let applies (r : PlanRow) : Bool := r.id = id && r.status = .processing
  let changed := rows.map fun r => if applies r then f r else r
  pure ({ s with plans := some changed }, rows.any applies)

/-- A plan as a completed run leaves it: scheduled again if there is a next start. -/
def PlanRow.complete (next : Option Wall) (now : Wall) (r : PlanRow) : PlanRow :=
  { r with
    status := if next.isSome then .scheduled else .completed
    startsAt := next.getD r.startsAt
    lastRunAt := some now
    lastError := none
    claimedAt := none }

/-- Finish a plan that is being processed, and schedule its next start if it has one. -/
def markCompleted (s : Store) (id : Text) (next : Option Stamp) (now : Stamp) :
    Except Fault (Store × Bool) := do
  let next ← instantOf? next
  let now ← instantOf now
  s.finish id [] (PlanRow.complete next now)

/-- A plan as a failed run leaves it. -/
def PlanRow.fail (message : Text) (now : Wall) (r : PlanRow) : PlanRow :=
  { r with
    status := .failed
    lastRunAt := some now
    lastError := some message
    claimedAt := none }

/-- Record that the run of a plan that is being processed failed. -/
def markFailed (s : Store) (id message : Text) (now : Stamp) : Except Fault (Store × Bool) := do
  let now ← instantOf now
  s.finish id [message] (PlanRow.fail message now)

/-- A plan put back on the schedule, perhaps with a new start that is also its anchor. -/
def PlanRow.requeue (startsAt : Option Wall) (r : PlanRow) : PlanRow :=
  { r with
    status := .scheduled
    startsAt := startsAt.getD r.startsAt
    anchorAt := startsAt <|> r.anchorAt
    lastError := none
    claimedAt := none }

/-- Put a plan that failed or was completed back on the schedule. -/
def requeuePlan (s : Store) (id : Text) (startsAt : Option Stamp) :
    Except Fault (Store × Option Plan) := do
  let startsAt ← instantOf? startsAt
  let rows ← rowsOf .plans s.plans
  encodable [id]
  let applies (r : PlanRow) : Bool := r.id = id && r.status.isRequeueable
  let changed := rows.map fun r => if applies r then r.requeue startsAt else r
  let s := { s with plans := some changed }
  if rows.any applies then pure (s, (changed.find? (·.id = id)).map PlanRow.toPlan)
  else pure (s, none)

end Store

end Showrunner
