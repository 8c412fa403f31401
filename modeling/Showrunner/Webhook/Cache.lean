import Showrunner.Time.Stamp
import Showrunner.Webhook.Event

/-!
# Armed tests

The cache holds the tests that wait for a request, one for each token. Arming a token again
replaces its test. Redeeming a token takes its test out of the cache, so that a token is redeemed
at most once; a test that has expired is taken out and refused. A sweep takes out the tests that
have expired.
-/

namespace Showrunner

namespace Webhook

/-- The tests that wait, with the address and the time that a new one is given. -/
structure Cache where
  baseUrl : Text
  lifetime : Int
  sessions : List Session

namespace Cache

/-- A cache without tests; slashes at the end of the address do not count. -/
def empty (baseUrl : Text) (lifetime : Int) : Cache :=
  ⟨baseUrl.dropEndWhile (· == .scalar '/'), lifetime, []⟩

/-- The address of a token. -/
def address (c : Cache) (token : Text) : Text := c.baseUrl ++ text "/t/" ++ token

/-- The test of a token. -/
def find? (c : Cache) (token : Text) : Option Session := c.sessions.find? (·.token = token)

/-- Take out the test of a token. -/
def remove (c : Cache) (token : Text) : Cache :=
  { c with sessions := c.sessions.filter (·.token ≠ token) }

/-- Let a test wait under its token. -/
def put (c : Cache) (session : Session) : Cache :=
  { c with sessions := (c.remove session.token).sessions ++ [session] }

/-- What the author of a test is told. -/
def announce (c : Cache) (session : Session) : Armed :=
  ⟨session.token, c.address session.token, session.expiresAt⟩

/-- Arm a test. -/
def arm (c : Cache) (token workflowId nodeId : Text) (now : Stamp) : Except Fault (Cache × Armed) := do
  let session : Session := ⟨token, workflowId, nodeId, ← now.add c.lifetime⟩
  pure (c.put session, c.announce session)

/-- Arm a test for ids that have not been read yet. -/
def armGiven (c : Cache) (token : Text) (workflowId nodeId : Json) (now : Stamp) :
    Except Fault (Cache × Armed) := do
  let _ ← now.add c.lifetime
  let ids ← (Prod.mk <$> (Reader.string workflowId).under (.field (text "workflow_id"))
    <*> (Reader.string nodeId).under (.field (text "node_id"))).toExcept
  c.arm token ids.1 ids.2 now

/-- Decide whether a test had expired before a time. -/
def expiredBefore (session : Session) (time : Stamp) : Except Fault Bool :=
  if session.expiresAt.comparable time then .ok (session.expiresAt.before time)
  else .error Stamp.incomparable

/-- Redeem a token: its test leaves the cache, and is the answer unless it has expired. -/
def redeem (c : Cache) (token : Text) (now : Stamp) : Cache × Except Fault Session :=
  match c.find? token with
  | none => (c, .error .tokenMissing)
  | some session =>
      (c.remove token, do
        if ← expiredBefore session now then .error .tokenExpired else pure session)

/-- Redeem a token; one that is missing or expired has no test. -/
def consume (c : Cache) (token : Text) (now : Stamp) : Cache × Except Fault (Option Session) :=
  let (c, found) := c.redeem token now
  (c, match found with
    | .ok session => .ok (some session)
    | .error .tokenMissing | .error .tokenExpired => .ok none
    | .error fault => .error fault)

/-- Take out the tests that expired before a time, and count them. -/
def sweep (c : Cache) (cutoff : Stamp) : Except Fault (Cache × Nat) := do
  let marked ← c.sessions.mapM fun session => do pure (session, ← expiredBefore session cutoff)
  let kept := (marked.filter (!·.2)).map (·.1)
  pure ({ c with sessions := kept }, marked.countP (·.2))

end Cache

end Webhook

end Showrunner
