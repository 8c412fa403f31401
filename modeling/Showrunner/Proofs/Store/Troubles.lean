import Showrunner.Proofs.Store.Claiming
import Showrunner.Store.Events
import Showrunner.Store.Workflows

/-!
# Troubles of the database

A call of the store makes the values that it passes, sends a statement to the database, and reads the rows that
come back; a claim selects the rows that it has updated by one more statement, with a variable for each. The
database reports three troubles: the table of the statement is missing, the id of a new row is taken, or there
are more variables than a statement may have. A claim tells of them as its own failure, and so does the finish
of a plan; every other call passes on what was reported as it is. Whatever goes wrong, the tables stay as they
were.
-/

namespace Showrunner

/-- A fault tells of trouble with the database, as it was reported or in the words of a call. -/
def Fault.OfDatabase : Fault → Prop
  | .operational _ | .integrity _ | .store _ | .claim _ => True
  | _ => False

namespace Store

/-! ## Faults of other kinds -/

/-- An operation does not end with a fault that tells of trouble with the database. -/
def Quiet {α : Type} (m : Except Fault α) : Prop := Comes (¬·.OfDatabase) (fun _ => True) m

section

variable {α β : Type} {m : Except Fault α} {f : α → Except Fault β}

/-- A chain of quiet steps is quiet. -/
theorem Quiet.bind (hm : Quiet m) (hf : ∀ a, Quiet (f a)) : Quiet (m >>= f) :=
  Comes.bind hm fun a _ => hf a

/-- An overflow is no trouble with the database. -/
theorem quiet_of_overflows (h : Comes Overflows (fun _ => True) m) : Quiet m := by
  refine h.mono ?_ fun _ _ => trivial
  rintro _ ⟨_, rfl⟩
  exact not_false

/-- Moving a stamp to universal time is quiet. -/
theorem quiet_instantOf (t : Stamp) : Quiet (instantOf t) := quiet_of_overflows (comes_instantOf t)

/-- Moving a stamp to universal time is quiet, if there is one. -/
theorem quiet_instantOf? (t : Option Stamp) : Quiet (instantOf? t) := by
  cases t with
  | none => exact trivial
  | some t =>
    rw [instantOf?_some]
    exact (quiet_instantOf t).bind fun _ => trivial

/-- Refusing texts is quiet. -/
theorem quiet_encodable (texts : List Text) : Quiet (encodable texts) := by
  induction texts with
  | nil => exact trivial
  | cons t rest ih =>
    rw [encodable]
    split
    · exact not_false
    · exact ih

/-- Refusing an integer is quiet. -/
theorem quiet_storable (n : Int) : Quiet (storable n) := quiet_of_overflows (comes_storable n)

/-- Writing the documents of a workflow is quiet. -/
theorem quiet_documentsOf (w : Workflow) : Quiet (documentsOf w) := by
  have hrecord : ∀ v, Quiet (recordDocument v) := by
    intro v
    unfold recordDocument
    split
    · exact trivial
    · exact not_false
  exact (hrecord _).bind fun _ => (hrecord _).bind fun _ => trivial

/-- A verdict is no trouble with the database. -/
theorem quiet_toExcept (v : Verdict α) : Quiet v.toExcept := by
  cases v with
  | valid a => exact trivial
  | invalid issues => exact not_false

/-- Reading a document is quiet. -/
theorem quiet_readColumn (document : Text) : Quiet (readColumn document) := by
  unfold readColumn
  split
  · exact trivial
  all_goals exact not_false

/-- Reading the document of a record is quiet. -/
theorem quiet_readRecord (read : Reader α) (document : Text) : Quiet (readRecord read document) := by
  unfold readRecord
  split
  · exact quiet_toExcept _
  · exact not_false

/-- Reading the row of a workflow is quiet. -/
theorem quiet_toWorkflow (r : WorkflowRow) : Quiet r.toWorkflow :=
  (quiet_readRecord _ _).bind fun _ => (quiet_readRecord _ _).bind fun _ => (quiet_readColumn _).bind fun _ =>
    (quiet_toExcept _).bind fun _ => trivial

/-- Reading the row of an event is quiet. -/
theorem quiet_toEvent (r : EventRow) : Quiet r.toEvent :=
  (quiet_readColumn _).bind fun _ => (quiet_readColumn _).bind fun _ => (quiet_toExcept _).bind fun _ => trivial

/-- A quiet step over a list is quiet. -/
theorem quiet_mapM {items : List α} (h : ∀ a, Quiet (f a)) : Quiet (items.mapM f) := by
  have hitems : ∀ a ∈ items, Comes (¬Fault.OfDatabase ·) (fun _ => True) (f a) := fun a _ => h a
  exact (comes_mapM hitems).mono (fun _ hfault => hfault) fun _ _ => trivial

/-- A quiet step over what may be there is quiet. -/
theorem quiet_optionMapM {item : Option α} (h : ∀ a, Quiet (f a)) : Quiet (item.mapM f) := by
  cases item with
  | none => exact trivial
  | some a => exact (h a).bind fun _ => trivial

end

/-! ## Calls and their statements -/

/-- A call of the store with all that its caller passes. -/
inductive Call
  | createWorkflow (w : Workflow)
  | updateWorkflow (id : Text) (w : Workflow)
  | getWorkflow (id : Text)
  | listWorkflows
  | getDefinition (id : Text)
  | createPlan (id : Text) (draft : Plan.Draft) (now : Stamp)
  | getPlan (id : Text)
  | listPlans (status : Option Plan.Status)
  | claim (limit : Int) (now : Stamp) (staleAfter : Option Int)
  | markCompleted (id : Text) (next : Option Stamp) (now : Stamp)
  | markFailed (id message : Text) (now : Stamp)
  | requeuePlan (id : Text) (startsAt : Option Stamp)
  | addEvent (e : Webhook.Event)
  | listEvents (workflowId : Text) (nodeId : Option Text)

/-- A statement: the table that it names, what binding its values comes to, the id of the row that it inserts,
if it inserts one, and the ids of the rows that are selected behind it, each with a variable of its own. To bind
a value nothing is asked of the database. -/
structure Statement where
  table : TableName
  bound : Except Fault Unit
  inserts : Option Text
  selects : Store → List Text
  quiet : Quiet bound

/-- The ids of a table, unless it is missing. -/
def ids? (s : Store) : TableName → Table Text
  | .workflows => s.workflows.map (List.map WorkflowRow.id)
  | .plans => s.plans.map (List.map PlanRow.id)
  | .events => s.events.map (List.map EventRow.id)

/-- What the database reports of a statement: its table is missing, or its values are bound and the id of its
new row is taken, or they are bound, the id is not taken, and the selection behind it has too many variables.
No other constraint can be violated, since what must be filled in a row is always passed. -/
inductive Statement.Reports (s : Store) (t : Statement) : Fault → Prop
  | missing (htable : s.ids? t.table = none) : Reports s t (missing t.table.text)
  | taken {ids : List Text} {id : Text} (htable : s.ids? t.table = some ids) (hbound : t.bound = .ok ())
      (hinserts : t.inserts = some id) (hid : id ∈ ids) : Reports s t (taken t.table)
  | crowded {ids : List Text} (htable : s.ids? t.table = some ids) (hbound : t.bound = .ok ())
      (hfree : ∀ id ∈ t.inserts, id ∉ ids) (hmany : variableLimit < (t.selects s).length) :
      Reports s t tooManyVariables

/-- Refuse the selection of more ids than a statement has variables. -/
def selectable (ids : List Text) : Except Fault Unit :=
  if variableLimit < ids.length then .error tooManyVariables else .ok ()

/-- Send a statement: the table is looked up, the values are bound, a new row needs an id of its own, and the
selection behind it needs a variable for each id. -/
def Statement.send (s : Store) (t : Statement) : Except Fault Unit := do
  let ids ← rowsOf t.table (s.ids? t.table)
  t.bound
  if t.inserts.any ids.contains then .error (taken t.table)
  selectable (t.selects s)

namespace Call

/-- Make the values of a call and the statement that it sends; a claim of nothing sends none. -/
def statement : Call → Except Fault (Option Statement)
  | createWorkflow w => do
      let _ ← documentsOf w
      let _ ← instantOf w.createdAt
      let _ ← instantOf w.updatedAt
      pure (some
        { table := .workflows
          bound := do encodable [w.id, w.name]; storable w.version
          inserts := some w.id
          selects := fun _ => []
          quiet := (quiet_encodable _).bind fun _ => quiet_storable _ })
  | updateWorkflow id w => do
      let _ ← documentsOf w
      let _ ← instantOf w.updatedAt
      pure (some
        { table := .workflows
          bound := do encodable [w.name]; storable w.version; encodable [id]
          inserts := none
          selects := fun _ => []
          quiet := (quiet_encodable _).bind fun _ => (quiet_storable _).bind fun _ => quiet_encodable _ })
  | getWorkflow id | getDefinition id =>
      pure (some ⟨.workflows, encodable [id], none, fun _ => [], quiet_encodable _⟩)
  | listWorkflows => pure (some ⟨.workflows, pure (), none, fun _ => [], trivial⟩)
  | createPlan id draft now => do
      let _ ← instantOf draft.startsAt
      let _ ← instantOf now
      pure (some
        { table := .plans
          bound := encodable ([id, draft.userId, draft.influencerId, draft.lookId, draft.prompt] ++
            draft.title.toList ++ draft.rrule.toList)
          inserts := some id
          selects := fun _ => []
          quiet := quiet_encodable _ })
  | getPlan id => pure (some ⟨.plans, encodable [id], none, fun _ => [], quiet_encodable _⟩)
  | listPlans _ => pure (some ⟨.plans, pure (), none, fun _ => [], trivial⟩)
  | claim limit now staleAfter =>
      if limit ≤ 0 then pure none
      else do
        let before ← staleBefore now staleAfter
        let now ← instantOf now
        pure (some
          { table := .plans
            bound := storable limit
            inserts := none
            selects := fun s => (swapAll now ((dueRows s.planRows limit.toNat now before).map
              PlanRow.candidate) s.planRows).2.map Candidate.id
            quiet := quiet_storable _ })
  | markCompleted id next now => do
      let _ ← instantOf? next
      let _ ← instantOf now
      pure (some ⟨.plans, encodable [id], none, fun _ => [], quiet_encodable _⟩)
  | markFailed id message now => do
      let _ ← instantOf now
      pure (some ⟨.plans, encodable [message, id], none, fun _ => [], quiet_encodable _⟩)
  | requeuePlan id startsAt => do
      let _ ← instantOf? startsAt
      pure (some ⟨.plans, encodable [id], none, fun _ => [], quiet_encodable _⟩)
  | addEvent e => do
      let _ ← instantOf e.capturedAt
      pure (some ⟨.events, encodable [e.id, e.workflowId, e.nodeId], some e.id, fun _ => [], quiet_encodable _⟩)
  | listEvents workflowId nodeId =>
      pure (some ⟨.events, encodable (workflowId :: nodeId.toList), none, fun _ => [], quiet_encodable _⟩)

/-- What a call raises where its statement fails. -/
def raised : Call → Fault → Fault
  | claim .. => claimFailure
  | markCompleted id .. | markFailed id .. => updateFailure id
  | _ => fun f => f

/-- Recognise a claim. -/
def isClaim : Call → Bool
  | claim .. => true
  | _ => false

/-- The plan that a call finishes. -/
def finishes? : Call → Option Text
  | markCompleted id .. | markFailed id .. => some id
  | _ => none

/-- The store that a call leaves, or its fault. -/
def run (s : Store) : Call → Except Fault Store
  | createWorkflow w => do return (← s.createWorkflow w).1
  | updateWorkflow id w => do return (← s.updateWorkflow id w).1
  | getWorkflow id => do let _ ← s.getWorkflow id; return s
  | listWorkflows => do let _ ← s.listWorkflows; return s
  | getDefinition id => do let _ ← s.getDefinition id; return s
  | createPlan id draft now => do return (← s.createPlan id draft now).1
  | getPlan id => do let _ ← s.getPlan id; return s
  | listPlans status => do let _ ← s.listPlans status; return s
  | claim limit now staleAfter => do return (← s.claim limit now staleAfter).store
  | markCompleted id next now => do return (← s.markCompleted id next now).1
  | markFailed id message now => do return (← s.markFailed id message now).1
  | requeuePlan id startsAt => do return (← s.requeuePlan id startsAt).1
  | addEvent e => do return (← s.addEvent e).1
  | listEvents workflowId nodeId => do let _ ← s.listEvents workflowId nodeId; return s

/-- Perform a call; one that fails leaves the store alone. -/
def perform (s : Store) (c : Call) : Store × Option Fault :=
  match c.run s with
  | .ok s' => (s', none)
  | .error fault => (s, some fault)

/-- The database reports a trouble to a call. -/
def Meets (s : Store) (c : Call) (f : Fault) : Prop :=
  ∃ t, c.statement = .ok (some t) ∧ t.Reports s f

/-- What a call comes to by sending its statement. -/
def sent (s : Store) (c : Call) : Except Fault Unit := do
  match ← c.statement with
  | none => pure ()
  | some t => (t.send s).mapError c.raised

end Call

/-! ## Runs and their statements -/

/-- A run fails where sending its statement does, and for the same reason; otherwise it is quiet. -/
def Follows (sent : Except Fault Unit) (run : Except Fault Store) : Prop :=
  match sent with
  | .ok _ => Quiet run
  | .error fault => run = .error fault

section

variable {α β Row : Type} {s : Store} {t : Statement} {table : Table Row} {key : Row → Text}
variable {raised : Fault → Fault}

/-- Passing on what is reported changes nothing. -/
theorem mapError_id {m : Except Fault α} : m = m.mapError fun f => f := by
  cases m <;> rfl

/-- A first step of both leaves a run following its statement. -/
theorem Follows.bind {m : Except Fault α} {sent : α → Except Fault Unit} {run : α → Except Fault Store}
    (h : ∀ a, Follows (sent a) (run a)) : Follows (m >>= sent) (m >>= run) := by
  cases m with
  | ok a => exact h a
  | error fault => exact (rfl : _ = _)

/-- What comes behind a last step and is quiet leaves a run following this step. -/
theorem Follows.last {m : Except Fault Unit} {run : Unit → Except Fault Store}
    (h : ∀ a, Quiet (run a)) : Follows m (m >>= run) := by
  cases m with
  | ok a => exact h a
  | error fault => exact (rfl : _ = _)

/-- Where its table is there and its values are bound, a statement looks for the id of its row and selects. -/
theorem Statement.send_bound {ids : List Text} (htable : s.ids? t.table = some ids) (hbound : t.bound = .ok ()) :
    t.send s = if t.inserts.any ids.contains = true then .error (taken t.table) else selectable (t.selects s) := by
  rw [send, htable, hbound]
  change (if _ then _ else _) = _
  split <;> rfl

/-- Where its table is there, a statement that inserts nothing binds its values and selects. -/
theorem Statement.send_of_table {ids : List Text} (htable : s.ids? t.table = some ids) (hinserts : t.inserts = none) :
    t.send s = t.bound >>= fun _ => selectable (t.selects s) := by
  rw [send, htable, hinserts]
  rfl

/-- Where its table is there, a statement that inserts a row and selects nothing binds its values and looks for the
id of the row. -/
theorem Statement.send_of_inserts {ids : List Text} {id : Text} (htable : s.ids? t.table = some ids)
    (hinserts : t.inserts = some id) (hselects : t.selects s = []) : t.send s = t.bound >>= fun _ =>
      if ids.contains id = true then .error (taken t.table) else pure () := by
  rw [send, htable, hinserts, hselects]
  refine congrArg (t.bound >>= ·) (funext fun _ => ?_)
  rw [Option.any_some]
  split <;> rfl

/-- A run follows a statement that inserts nothing if it looks up the table, wording what is reported as the
statement does, and then follows the binding of the values and the selection. -/
theorem Follows.selecting (htable : s.ids? t.table = table.map (List.map key)) (hinserts : t.inserts = none)
    (hraised : ∀ f, ¬f.OfDatabase → raised f = f) {found : Except Fault (List Row)}
    (hfound : found = (rowsOf t.table table).mapError raised) {run : List Row → Except Fault Store}
    (hrun : ∀ rows, table = some rows →
      Follows (t.bound >>= fun _ => (selectable (t.selects s)).mapError raised) (run rows)) :
    Follows ((t.send s).mapError raised) (found >>= run) := by
  subst hfound
  cases table with
  | none =>
    rw [Statement.send, htable]
    exact (rfl : _ = _)
  | some rows =>
    rw [Statement.send_of_table htable hinserts]
    have hquiet := t.quiet
    have hfollows := hrun rows rfl
    cases hbound : t.bound with
    | ok done =>
      rw [hbound] at hfollows
      exact hfollows
    | error fault =>
      rw [hbound] at hquiet hfollows
      exact hfollows.trans (congrArg Except.error (hraised fault hquiet).symm)

/-- A run follows a statement that inserts and selects nothing if it looks up the table, wording what is reported as
the statement does, and then follows the binding of the values. -/
theorem Follows.reading (htable : s.ids? t.table = table.map (List.map key)) (hinserts : t.inserts = none)
    (hselects : t.selects s = []) (hraised : ∀ f, ¬f.OfDatabase → raised f = f) {found : Except Fault (List Row)}
    (hfound : found = (rowsOf t.table table).mapError raised) {run : List Row → Except Fault Store}
    (hrun : ∀ rows, Follows t.bound (run rows)) : Follows ((t.send s).mapError raised) (found >>= run) := by
  refine .selecting htable hinserts hraised hfound fun rows _ => ?_
  have hbound : (t.bound >>= fun _ => (selectable (t.selects s)).mapError raised) = t.bound := by
    rw [hselects]
    cases t.bound <;> rfl
  rw [hbound]
  exact hrun rows

/-- A run follows a statement that inserts and selects nothing if it looks up the table, passing on what is reported,
and then follows the binding of the values. -/
theorem Follows.asking (htable : s.ids? t.table = table.map (List.map key)) (hinserts : t.inserts = none)
    (hselects : t.selects s = []) {run : List Row → Except Fault Store}
    (hrun : ∀ rows, Follows t.bound (run rows)) :
    Follows ((t.send s).mapError fun f => f) (rowsOf t.table table >>= run) :=
  .reading htable hinserts hselects (fun _ _ => rfl) mapError_id hrun

/-- A run follows a statement that inserts a row if it looks up the table, and then follows the binding of the
values and the search for the id of the row. -/
theorem Follows.inserting {id : Text} (htable : s.ids? t.table = table.map (List.map key))
    (hinserts : t.inserts = some id) (hselects : t.selects s = []) {run : List Row → Except Fault Store}
    (hrun : ∀ rows, Follows (t.bound >>= fun _ =>
      if rows.any (fun r => key r = id) = true then .error (taken t.table) else pure ()) (run rows)) :
    Follows ((t.send s).mapError fun f => f) (rowsOf t.table table >>= run) := by
  rw [← mapError_id]
  cases table with
  | none =>
    rw [Statement.send, htable]
    exact (rfl : _ = _)
  | some rows =>
    have htaken : (rows.map key).contains id = rows.any fun r => key r = id := by
      rw [Bool.eq_iff_iff]
      simp
    rw [Statement.send_of_inserts htable hinserts hselects, htaken]
    exact hrun rows

/-- A run that stops where an id is taken follows the search for the id. -/
theorem Follows.fresh {c : Bool} {fault : Fault} {done : Except Fault (Store × β)} (h : Quiet done) :
    Follows (if c = true then .error fault else pure ())
      ((if c = true then .error fault >>= fun _ : Unit => done else done) >>= fun d => pure d.1) := by
  split
  · exact (rfl : _ = _)
  · exact h.bind fun _ => trivial

end

/-- A claim passes on what is no trouble with the database. -/
theorem claimFailure_of_quiet {f : Fault} (h : ¬f.OfDatabase) : claimFailure f = f := by
  cases f <;> first | rfl | exact absurd trivial h

/-- The finish of a plan passes on what is no trouble with the database. -/
theorem updateFailure_of_quiet {id : Text} {f : Fault} (h : ¬f.OfDatabase) : updateFailure id f = f := by
  cases f <;> first | rfl | exact absurd trivial h

/-- The last steps of a claim follow the selection of the rows that were updated. -/
theorem follows_selected {store : Store} {rows : List PlanRow} {taken : List Candidate}
    {done : List PlanRow → Claimed} :
    Follows ((selectable (taken.map Candidate.id)).mapError claimFailure)
      ((if taken.isEmpty = true then pure ⟨store, [], []⟩
        else (rowsWithin (taken.map Candidate.id) rows).mapError claimFailure >>= fun claimed =>
          pure (done claimed)) >>= fun claimed : Claimed => pure claimed.store) := by
  cases taken with
  | nil => exact trivial
  | cons c taken =>
    rw [if_neg (by simp), selectable, rowsWithin]
    split
    · exact (rfl : _ = _)
    · exact trivial

/-- Every run of a call follows its statement. -/
theorem Call.follows (c : Call) (s : Store) : Follows (c.sent s) (c.run s) := by
  cases c with
  | createWorkflow w =>
    simp only [sent, run, statement, Store.createWorkflow, bind_assoc, pure_bind]
    refine .bind fun _ => .bind fun _ => .bind fun _ => ?_
    refine .inserting rfl rfl rfl fun _ => ?_
    simp only [bind_assoc]
    exact .bind fun _ => .bind fun _ => .fresh trivial
  | updateWorkflow id w =>
    simp only [sent, run, statement, Store.updateWorkflow, bind_assoc, pure_bind]
    refine .bind fun _ => .bind fun _ => .asking rfl rfl rfl fun _ => ?_
    exact .bind fun _ => .bind fun _ => .last fun _ => trivial
  | getWorkflow id =>
    simp only [sent, run, statement, Store.getWorkflow, workflowRow?, bind_assoc, pure_bind]
    exact .asking rfl rfl rfl fun _ => .last fun _ =>
      (quiet_optionMapM quiet_toWorkflow).bind fun _ => trivial
  | getDefinition id =>
    simp only [sent, run, statement, Store.getDefinition, workflowRow?, bind_assoc, pure_bind]
    exact .asking rfl rfl rfl fun _ => .last fun _ =>
      (quiet_optionMapM fun _ => quiet_readRecord _ _).bind fun _ => trivial
  | listWorkflows =>
    simp only [sent, run, statement, Store.listWorkflows, bind_assoc, pure_bind]
    exact .asking rfl rfl rfl fun _ => (quiet_mapM quiet_toWorkflow).bind fun _ => trivial
  | createPlan id draft now =>
    simp only [sent, run, statement, Store.createPlan, bind_assoc, pure_bind]
    refine .bind fun _ => .bind fun _ => .inserting rfl rfl rfl fun _ => ?_
    exact .bind fun _ => .fresh trivial
  | getPlan id =>
    simp only [sent, run, statement, Store.getPlan, bind_assoc, pure_bind]
    exact .asking rfl rfl rfl fun _ => .last fun _ => trivial
  | listPlans status =>
    simp only [sent, run, statement, Store.listPlans, bind_assoc, pure_bind]
    exact .asking rfl rfl rfl fun _ => trivial
  | claim limit now staleAfter =>
    simp only [sent, run, statement, Store.claim]
    split
    · exact trivial
    · simp only [bind_assoc, pure_bind]
      refine .bind fun before => .bind fun now => .selecting rfl rfl (fun _ => claimFailure_of_quiet) rfl
        fun rows htable => .bind fun _ => ?_
      simp only [planRows_of_some htable]
      exact follows_selected
  | markCompleted id next now =>
    simp only [sent, run, statement, Store.markCompleted, finish, bind_assoc, pure_bind]
    refine .bind fun _ => .bind fun _ => .reading rfl rfl rfl (fun _ => updateFailure_of_quiet) rfl fun _ => ?_
    exact .last fun _ => trivial
  | markFailed id message now =>
    simp only [sent, run, statement, Store.markFailed, finish, bind_assoc, pure_bind]
    exact .bind fun _ => .reading rfl rfl rfl (fun _ => updateFailure_of_quiet) rfl fun _ => .last fun _ => trivial
  | requeuePlan id startsAt =>
    simp only [sent, run, statement, Store.requeuePlan, bind_assoc, pure_bind]
    refine .bind fun _ => .asking rfl rfl rfl fun _ => .last fun _ => ?_
    split <;> trivial
  | addEvent e =>
    simp only [sent, run, statement, Store.addEvent, bind_assoc, pure_bind]
    exact .bind fun _ => .inserting rfl rfl rfl fun _ => .bind fun _ => .fresh trivial
  | listEvents workflowId nodeId =>
    simp only [sent, run, statement, Store.listEvents, bind_assoc, pure_bind]
    exact .asking rfl rfl rfl fun _ => .last fun _ =>
      (quiet_mapM quiet_toEvent).bind fun _ => trivial

/-! ## What is reported and what is raised -/

variable {s : Store} {f g : Fault}

namespace Statement

variable {t : Statement}

/-- A statement fails with what is reported of it. -/
theorem Reports.send_eq (h : t.Reports s f) : t.send s = .error f := by
  cases h with
  | missing htable =>
    rw [send, htable]
    rfl
  | taken htable hbound hinserts hid =>
    rw [send_bound htable hbound, if_pos]
    rw [hinserts, Option.any_some]
    exact List.contains_iff_mem.mpr hid
  | crowded htable hbound hfree hmany =>
    rw [send_bound htable hbound, if_neg, selectable, if_pos hmany]
    rw [Option.any_eq_true]
    rintro ⟨id, hid, htaken⟩
    exact hfree id hid (List.contains_iff_mem.mp htaken)

/-- The name of what is reported is not the one that the store has for its own failures. -/
theorem Reports.name_ne (h : t.Reports s f) : f.name ≠ text "StoreError" := by
  cases h with
  | missing => exact (by decide : text "OperationalError" ≠ text "StoreError")
  | taken => exact (by decide : text "IntegrityError" ≠ text "StoreError")
  | crowded => exact (by decide : text "OperationalError" ≠ text "StoreError")

/-- A statement that fails with trouble with the database fails with what is reported of it. -/
theorem reports_of_send_eq (h : t.send s = .error f) (hf : f.OfDatabase) : t.Reports s f := by
  cases htable : s.ids? t.table with
  | none =>
    rw [send, htable] at h
    cases h
    exact .missing htable
  | some ids =>
    have hquiet := t.quiet
    cases hbound : t.bound with
    | error fault =>
      rw [send, htable, hbound] at h
      rw [hbound] at hquiet
      cases h
      exact absurd hf hquiet
    | ok done =>
      rw [send_bound htable hbound, selectable] at h
      split at h
      · next htaken =>
        obtain ⟨id, hinserts, hid⟩ := (Option.any_eq_true _ _).mp htaken
        cases h
        exact .taken htable hbound hinserts (List.contains_iff_mem.mp hid)
      · next hfree =>
        split at h
        · next hmany =>
          cases h
          refine .crowded htable hbound (fun id hid htaken => hfree ?_) hmany
          exact (Option.any_eq_true _ _).mpr ⟨id, hid, List.contains_iff_mem.mpr htaken⟩
        · cases h

end Statement

namespace Call

/-- Making the values of a call is quiet. -/
theorem quiet_statement (c : Call) : Quiet c.statement := by
  cases c with
  | createWorkflow w =>
    exact (quiet_documentsOf w).bind fun _ => (quiet_instantOf _).bind fun _ =>
      (quiet_instantOf _).bind fun _ => trivial
  | updateWorkflow id w => exact (quiet_documentsOf w).bind fun _ => (quiet_instantOf _).bind fun _ => trivial
  | createPlan id draft now => exact (quiet_instantOf _).bind fun _ => (quiet_instantOf _).bind fun _ => trivial
  | claim limit now staleAfter =>
    rw [statement]
    split
    · exact trivial
    · exact (quiet_of_overflows (comes_staleBefore now staleAfter)).bind fun _ =>
        (quiet_instantOf _).bind fun _ => trivial
  | markCompleted id next now => exact (quiet_instantOf? _).bind fun _ => (quiet_instantOf _).bind fun _ => trivial
  | markFailed id message now => exact (quiet_instantOf _).bind fun _ => trivial
  | requeuePlan id startsAt => exact (quiet_instantOf? _).bind fun _ => trivial
  | addEvent e => exact (quiet_instantOf _).bind fun _ => trivial
  | _ => exact trivial

/-- A call passes on what is no trouble with the database. -/
theorem raised_of_quiet (c : Call) (h : ¬f.OfDatabase) : c.raised f = f := by
  cases c with
  | claim limit now staleAfter => exact claimFailure_of_quiet h
  | markCompleted id next now => exact updateFailure_of_quiet h
  | markFailed id message now => exact updateFailure_of_quiet h
  | _ => rfl

/-- A call to which a trouble is reported fails with what it raises then. -/
theorem Meets.run_eq {c : Call} (h : c.Meets s f) : c.run s = .error (c.raised f) := by
  obtain ⟨t, hstatement, hreports⟩ := h
  have hsent : c.sent s = .error (c.raised f) := by
    rw [sent, hstatement]
    exact congrArg (Except.mapError c.raised) hreports.send_eq
  have hfollows := c.follows s
  rw [hsent] at hfollows
  exact hfollows

/-- Where sending the statement of a call comes to trouble with the database, it is what the call raises for what is
reported to it. -/
theorem meets_of_sent_eq {c : Call} (h : c.sent s = .error g) (hg : g.OfDatabase) :
    ∃ f, c.Meets s f ∧ c.raised f = g := by
  have hquiet := c.quiet_statement
  cases hstatement : c.statement with
  | error fault =>
    rw [sent, hstatement] at h
    rw [hstatement] at hquiet
    cases h
    exact absurd hg hquiet
  | ok statement =>
    rw [sent, hstatement] at h
    cases statement with
    | none => cases h
    | some t =>
      change (t.send s).mapError c.raised = .error g at h
      cases hsend : t.send s with
      | ok done =>
        rw [hsend] at h
        cases h
      | error f =>
        rw [hsend] at h
        have hraised : c.raised f = g := Except.error.inj h
        have hf : f.OfDatabase := by
          by_contra hother
          rw [c.raised_of_quiet hother] at hraised
          exact hother (hraised ▸ hg)
        exact ⟨f, ⟨t, hstatement, Statement.reports_of_send_eq hsend hf⟩, hraised⟩

/-- A call that fails with trouble with the database raises this for what is reported to it. -/
theorem meets_of_run_eq {c : Call} (h : c.run s = .error g) (hg : g.OfDatabase) :
    ∃ f, c.Meets s f ∧ c.raised f = g := by
  have hfollows := c.follows s
  rw [h] at hfollows
  cases hsent : c.sent s with
  | ok done =>
    rw [hsent] at hfollows
    exact absurd hg hfollows
  | error fault =>
    rw [hsent] at hfollows
    obtain rfl : g = fault := Except.error.inj hfollows
    exact meets_of_sent_eq hsent hg

/-- In every store and for every call: where the database reports a trouble, the store is left as it was; the finish
of a plan and a claim raise failures of their own with what was reported, and every other call raises what was
reported as it is. A call that fails leaves the store as it was for whatever reason, and it fails with trouble with
the database only where the database reports one. -/
theorem perform_of_trouble (c : Call) (s : Store) :
    (∀ f, c.Meets s f → c.perform s = (s, some (c.raised f)) ∧
      (∀ id, c.finishes? = some id →
        c.raised f = .store (text "Could not update content plan " ++ id ++ text ": " ++ f.message)) ∧
      (c.isClaim = true → c.raised f = .claim (text "Could not claim due content plans: " ++ f.message)) ∧
      (c.finishes? = none → c.isClaim = false → c.raised f = f ∧ f.name ≠ text "StoreError")) ∧
    ∀ s' g, c.perform s = (s', some g) → s' = s ∧ (g.OfDatabase → ∃ f, c.Meets s f ∧ c.raised f = g) := by
  refine ⟨fun f hmeets => ?_, fun s' g h => ?_⟩
  · have hperform : c.perform s = (s, some (c.raised f)) := by rw [perform, hmeets.run_eq]
    obtain ⟨t, -, hreports⟩ := hmeets
    refine ⟨hperform, fun id hfinishes => ?_, fun hclaim => ?_,
      fun hfinishes hclaim => ⟨?_, hreports.name_ne⟩⟩
    · cases hreports <;> cases c <;> cases hfinishes <;> rfl
    · cases hreports <;> cases c <;> cases hclaim <;> rfl
    · cases c with
      | claim => cases hclaim
      | markCompleted => cases hfinishes
      | markFailed => cases hfinishes
      | _ => rfl
  · rw [perform] at h
    split at h
    · cases h
    · next hrun =>
      cases h
      exact ⟨rfl, meets_of_run_eq hrun⟩

/-- The new store without its table of plans. -/
def withoutPlans : Store := { empty with plans := none }

/-- A plan that cannot be finished where the plans are lost. -/
theorem perform_of_trouble_withoutPlans :
    (markFailed (text "p") (text "m") (.ofHours 0)).Meets withoutPlans (missing (text "content_plans")) ∧
      (markFailed (text "p") (text "m") (.ofHours 0)).perform withoutPlans =
        (withoutPlans, some (.store (text "Could not update content plan p: no such table: content_plans"))) := by
  have hmeets : (markFailed (text "p") (text "m") (.ofHours 0)).Meets withoutPlans (missing (text "content_plans")) :=
    ⟨_, rfl, .missing rfl⟩
  obtain ⟨hperform, hraised, -⟩ := (perform_of_trouble _ _).1 _ hmeets
  have hmessage : text "Could not update content plan " ++ text "p" ++ text ": " ++
      (missing (text "content_plans")).message =
        text "Could not update content plan p: no such table: content_plans" := by decide +kernel
  exact ⟨hmeets, by rw [hperform, hraised _ rfl, hmessage]⟩

/-- An event for calls of one's own. -/
def sampleEvent : Webhook.Event := ⟨text "e", text "w", text "n", .null, [], .ofHours 0⟩

/-- The new store once the event has been added. -/
def withEvent : Store := ((addEvent sampleEvent).perform empty).1

/-- A plan that is looked for where the plans are lost, and an event that is added a second time, fail with what the
database reports, which is no failure of the store's own. -/
theorem troubles_passed_on :
    ((getPlan (text "p")).Meets withoutPlans (missing (text "content_plans")) ∧
      (getPlan (text "p")).perform withoutPlans = (withoutPlans, some (missing (text "content_plans"))) ∧
      (missing (text "content_plans")).name ≠ text "StoreError") ∧
    (addEvent sampleEvent).Meets withEvent (taken .events) ∧
      (addEvent sampleEvent).perform withEvent = (withEvent, some (taken .events)) ∧
      (taken .events).name ≠ text "StoreError" := by
  have hlost : Statement.Reports withoutPlans _ (missing (text "content_plans")) :=
    .missing (t := ⟨.plans, encodable [text "p"], none, fun _ => [], quiet_encodable _⟩) rfl
  have hadded : Statement.Reports withEvent _ (taken .events) :=
    .taken (t := ⟨.events, encodable [text "e", text "w", text "n"], some (text "e"), fun _ => [],
      quiet_encodable _⟩) rfl rfl rfl List.mem_cons_self
  exact ⟨⟨⟨_, rfl, hlost⟩, rfl, hlost.name_ne⟩, ⟨_, rfl, hadded⟩, rfl, hadded.name_ne⟩

end Call

end Store

end Showrunner
