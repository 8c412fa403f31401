import Showrunner.Time.Write
import Showrunner.Validation.Reader

/-!
# Content plans

A plan says what is to be rendered, for whom, and when: at its start, and after that as its
recurrence rule says. The anchor is the first occurrence, from which the rule counts. A plan is
scheduled, is processed by the run that claimed it, and then is scheduled again, completed or
failed.
-/

namespace Showrunner

namespace Plan

/-- Where a plan stands. -/
inductive Status
  | scheduled
  | processing
  | completed
  | failed
deriving DecidableEq, Repr

/-- Name a status. -/
def Status.name : Status → String
  | .scheduled => "scheduled"
  | .processing => "processing"
  | .completed => "completed"
  | .failed => "failed"

/-- The statuses. -/
def Status.all : List Status := [.scheduled, .processing, .completed, .failed]

/-- Only a plan that failed or is completed goes back on the schedule by request. -/
def Status.isRequeueable (s : Status) : Bool := s == .failed || s == .completed

/-- Read a status. -/
def Status.read : Reader Status :=
  Reader.choice "enum" (Status.all.map fun s => (s.name, s))

/-- What a plan is created from. -/
structure Draft where
  userId : Text
  influencerId : Text
  lookId : Text
  prompt : Text
  title : Option Text
  startsAt : Stamp
  rrule : Option Text
deriving DecidableEq, Repr

end Plan

/-- A content plan. -/
structure Plan extends Plan.Draft where
  id : Text
  status : Plan.Status
  anchorAt : Option Stamp
  lastRunAt : Option Stamp
  lastError : Option Text
  claimedAt : Option Stamp
  createdAt : Stamp
deriving DecidableEq, Repr

namespace Plan

open Reader

/-- Read the fields of a draft. -/
def Draft.ofFields (fields : Fields) : Verdict Draft :=
  Draft.mk <$> required "user_id" string fields <*> required "influencer_id" string fields
    <*> required "look_id" string fields <*> required "prompt" string fields
    <*> optional ["title"] none (nullable string) fields
    <*> required "starts_at" instant fields
    <*> optional ["rrule"] none (nullable string) fields

/-- Read a draft. -/
def Draft.read (origin : Origin) : Reader Draft :=
  record origin "ContentPlanCreate" Draft.ofFields

/-- Read a plan; one without a time of creation was created now. -/
def read (now : Stamp) : Reader Plan :=
  record .value "ContentPlan" fun fields =>
    Plan.mk <$> Draft.ofFields fields <*> required "id" string fields
      <*> optional ["status"] .scheduled Status.read fields
      <*> optional ["anchor_at"] none (nullable instant) fields
      <*> optional ["last_run_at"] none (nullable instant) fields
      <*> optional ["last_error"] none (nullable string) fields
      <*> optional ["claimed_at"] none (nullable instant) fields
      <*> optional ["created_at"] now instant fields

/-- Write a time stamp, or null where there is none. -/
def dumpStamp? (s : Option Stamp) : Json := Json.ofText? (s.map Stamp.toPlainText)

/-- Write a status. -/
def Status.dump (s : Status) : Json := .str (text s.name)

/-- The fields of a draft as written. -/
def Draft.dumpFields (d : Draft) : Fields :=
  [(text "user_id", .str d.userId), (text "influencer_id", .str d.influencerId),
    (text "look_id", .str d.lookId), (text "prompt", .str d.prompt),
    (text "title", Json.ofText? d.title), (text "starts_at", .str d.startsAt.toPlainText),
    (text "rrule", Json.ofText? d.rrule)]

/-- Write a draft. -/
def Draft.dump (d : Draft) : Json := .obj d.dumpFields

/-- Write a plan. -/
def dump (p : Plan) : Json :=
  .obj (p.toDraft.dumpFields ++
    [(text "id", .str p.id), (text "status", p.status.dump),
      (text "anchor_at", dumpStamp? p.anchorAt), (text "last_run_at", dumpStamp? p.lastRunAt),
      (text "last_error", Json.ofText? p.lastError), (text "claimed_at", dumpStamp? p.claimedAt),
      (text "created_at", .str p.createdAt.toPlainText)])

/-- What is asked when a plan goes back on the schedule: perhaps a new start. -/
structure Requeue where
  startsAt : Option Stamp

/-- Read what is asked when a plan goes back on the schedule. -/
def Requeue.read (origin : Origin) : Reader Requeue :=
  record origin "RequeueRequest" fun fields =>
    Requeue.mk <$> optional ["starts_at"] none (nullable instant) fields

/-- Write what is asked when a plan goes back on the schedule. -/
def Requeue.dump (r : Requeue) : Json := .obj [(text "starts_at", dumpStamp? r.startsAt)]

end Plan

end Showrunner
