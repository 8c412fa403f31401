import Showrunner.Proofs.Web.Submissions

/-!
# Workflows as they were saved

What a service tells of a workflow is told by the exchanges that saved it. One of them created it, the others
updated it and are counted by its version, and the last of them settled its name, its board, its definition
and its warnings. Until the next one every request for the workflow, for its definition or for the list of
workflows is answered with what that exchange answered, although the one answer was written from what was
submitted and the others are written from what is read out of the store.

A board with errors is never saved, neither as a new workflow nor over a stored one.
-/

namespace Showrunner

namespace Web

open Store (WorkflowRow Table)

variable {σ : Type} {service : Service} {outer : Surroundings σ} {s : Stage σ} {r : Request}
  {history : List Exchange} {x : Exchange} {id : Text} {w w' : Workflow} {rows : List WorkflowRow}
  {row : WorkflowRow} {updatedAt : Wall}

/-- A history of exchanges tells of a workflow: one exchange created it, its version counts those that updated
it, and it is what the last of them saved. -/
structure Tells (service : Service) (history : List Exchange) (id : Text) (w : Workflow) : Prop where
  created : ∃ x, history.filter (·.creates id) = [x] ∧ w.createdAt = x.time
  version : w.version = 1 + history.countP (·.updates id)
  saved : ∃ x, (history.filter (·.saves id)).getLast? = some x ∧ x.Saved service w

/-- The rows of the workflows are those of which a history of exchanges tells. -/
structure Chronicle (service : Service) (history : List Exchange) (rows : List WorkflowRow) : Prop where
  ids : (rows.map WorkflowRow.id).Nodup
  told : ∀ row ∈ rows, ∃ w, row.Holds w ∧ Tells service history row.id w
  saved : ∀ x ∈ history, ∀ id, x.saves id = true → ∃ row ∈ rows, row.id = id

/-- Requests about a workflow are answered with a document: with itself, with its definition, and with itself
once among the others. -/
structure Serves (service : Service) (outer : Surroundings σ) (s : Stage σ) (id : Text) (document : Json) :
    Prop where
  workflow : ∀ token r, r.endpoint? = some (.getWorkflow id) →
    (handle service outer token r s).2.bind Response.answer? = some document
  definition : ∀ token r, r.endpoint? = some (.getDefinition id) →
    (handle service outer token r s).2.bind Response.answer? = document.field? (text "definition")
  entry : ∀ token r, r.endpoint? = some .listWorkflows →
    ∃ documents, (handle service outer token r s).2.bind Response.answer? = some (.arr documents) ∧
      documents.filter (idIn? · = some id) = [document]

/-! ## One more exchange -/

/-- What a history tells of a workflow stays true with an exchange that does not save it. -/
theorem Tells.other (h : Tells service history id w) (hx : x.saves id = false) :
    Tells service (history ++ [x]) id w := by
  obtain ⟨hcreates, hupdates⟩ := Exchange.saves_eq_false.mp hx
  obtain ⟨⟨first, hfirst, hcreated⟩, hversion, ⟨last, hlast, hsaved⟩⟩ := h
  refine ⟨⟨first, ?_, hcreated⟩, ?_, ⟨last, ?_, hsaved⟩⟩
  · simp [hfirst, hcreates]
  · simp [hversion, hupdates]
  · simp [hx, hlast]

/-- An exchange that creates a workflow is the first that tells of it. -/
theorem tells_created (hnone : ∀ y ∈ history, y.saves w.id = false) (hsaved : x.Saved service w)
    (hroute : x.request.endpoint? = some .createWorkflow) (hversion : w.version = 1)
    (hcreated : w.createdAt = x.time) : Tells service (history ++ [x]) w.id w := by
  have hcreates : x.creates w.id = true := (hsaved.creates_iff hroute).mpr rfl
  have hupdates : x.updates w.id = false := Exchange.updates_of_create hroute
  have hsaves : x.saves w.id = true := by rw [Exchange.saves, hcreates, Bool.true_or]
  have hnever := fun y hy => Exchange.saves_eq_false.mp (hnone y hy)
  have hnocreation : history.filter (·.creates w.id) = [] :=
    List.filter_eq_nil_iff.mpr fun y hy => Bool.eq_false_iff.mp (hnever y hy).1
  have hnoupdate : history.countP (·.updates w.id) = 0 :=
    List.countP_eq_zero.mpr fun y hy => Bool.eq_false_iff.mp (hnever y hy).2
  refine ⟨⟨x, ?_, hcreated⟩, ?_, ⟨x, ?_, hsaved⟩⟩
  · simp [hnocreation, hcreates]
  · simp [hversion, hnoupdate, hupdates]
  · simp [hsaves]

/-- An exchange that updates a workflow is the last that tells of it. -/
theorem Tells.updated (h : Tells service history id w) (hid : w'.id = id)
    (hsaved : x.Saved service w') (hroute : x.request.endpoint? = some (.updateWorkflow w'.id))
    (hversion : w'.version = w.version + 1) (hcreated : w'.createdAt = w.createdAt) :
    Tells service (history ++ [x]) id w' := by
  have hcreates : x.creates id = false := Exchange.creates_of_update hroute
  have hupdates : x.updates id = true := (hsaved.updates_iff hroute).mpr hid.symm
  have hsaves : x.saves id = true := by rw [Exchange.saves, hupdates, Bool.or_true]
  obtain ⟨⟨first, hfirst, hmade⟩, hcount, -⟩ := h
  refine ⟨⟨first, ?_, hcreated.trans hmade⟩, ?_, ⟨x, ?_, hsaved⟩⟩
  · simp [hfirst, hcreates]
  · simp [hversion, hcount, hupdates, add_assoc]
  · simp [hsaves]

/-- A chronicle stays one with an exchange that saves no workflow. -/
theorem Chronicle.other (h : Chronicle service history rows) (hother : ∀ id, x.saves id = false) :
    Chronicle service (history ++ [x]) rows where
  ids := h.ids
  told := fun row hrow => by
    obtain ⟨w, hholds, htells⟩ := h.told row hrow
    exact ⟨w, hholds, htells.other (hother row.id)⟩
  saved := fun y hy id hid => by
    rcases List.mem_append.mp hy with hy | hy
    · exact h.saved y hy id hid
    · cases (hother id).symm.trans (List.mem_singleton.mp hy ▸ hid)

/-- A chronicle goes on with an exchange that adds the row of a workflow. -/
theorem Chronicle.created (h : Chronicle service history rows)
    (hroute : x.request.endpoint? = some .createWorkflow) (hsaved : x.Saved service w)
    (hholds : row.Holds w) (hversion : w.version = 1) (hcreated : w.createdAt = x.time)
    (hfree : ∀ r ∈ rows, r.id ≠ w.id) : Chronicle service (history ++ [x]) (rows ++ [row]) where
  ids := by
    rw [List.map_append, List.map_singleton, hholds.id_eq]
    refine List.nodup_append.mpr ⟨h.ids, List.nodup_singleton _, fun a ha b hb hab => ?_⟩
    obtain ⟨r, hr, hid⟩ := List.mem_map.mp ha
    exact hfree r hr (hid.trans (hab.trans (List.mem_singleton.mp hb)))
  told := fun r hr => by
    rcases List.mem_append.mp hr with hr | hr
    · obtain ⟨w', hholds', htells⟩ := h.told r hr
      have hother : x.saves r.id = false :=
        Bool.eq_false_iff.mpr fun hid => hfree r hr (hsaved.eq_of_saves (.inl hroute) hid)
      exact ⟨w', hholds', htells.other hother⟩
    · obtain rfl := List.mem_singleton.mp hr
      have hnone : ∀ y ∈ history, y.saves w.id = false := fun y hy => by
        refine Bool.eq_false_iff.mpr fun hid => ?_
        obtain ⟨other, hother, hsame⟩ := h.saved y hy w.id hid
        exact hfree other hother hsame
      exact ⟨w, hholds, hholds.id_eq ▸ tells_created hnone hsaved hroute hversion hcreated⟩
  saved := fun y hy id hid => by
    rcases List.mem_append.mp hy with hy | hy
    · obtain ⟨r, hr, hsame⟩ := h.saved y hy id hid
      exact ⟨r, List.mem_append_left _ hr, hsame⟩
    · obtain rfl := List.mem_singleton.mp hy
      exact ⟨row, List.mem_append_right _ (List.mem_singleton_self _),
        hholds.id_eq.trans (hsaved.eq_of_saves (.inl hroute) hid).symm⟩

/-- A chronicle goes on with an exchange that rewrites the row of a workflow. -/
theorem Chronicle.updated (h : Chronicle service history rows)
    (hroute : x.request.endpoint? = some (.updateWorkflow w.id)) (hsaved : x.Saved service w)
    (hfind : rows.find? (·.id = w.id) = some row) (hversion : w.version = row.version + 1)
    (hholds : (WorkflowRow.ofWorkflow w row.createdAt updatedAt).Holds w) :
    Chronicle service (history ++ [x])
      (Store.modify WorkflowRow.id w.id (fun r => .ofWorkflow w r.createdAt updatedAt) rows) := by
  have hrewritten : ∀ r : WorkflowRow, (WorkflowRow.ofWorkflow w r.createdAt updatedAt).id = w.id :=
    fun _ => rfl
  have hids := Store.ids_modify hrewritten rows
  refine ⟨hids ▸ h.ids, fun row' hrow' => ?_, fun y hy id hid => ?_⟩
  · obtain ⟨r, hr, rfl⟩ := List.mem_map.mp hrow'
    dsimp only
    split
    · next hid =>
      -- the row that is rewritten is the one whose version the update found
      have hsame : row = r := by
        have hfound := Store.find?_key h.ids hr
        rw [hid, hfind] at hfound
        exact Option.some.inj hfound
      obtain ⟨before, hbefore, htells⟩ := h.told r hr
      have hnext : w.version = before.version + 1 := by
        rw [hversion, hsame, hbefore.made]
        rfl
      have hcreated : w.createdAt = before.createdAt := by
        rw [hholds.createdAt, hbefore.createdAt, hsame]
        rfl
      exact ⟨w, hsame ▸ hholds, (hid ▸ htells).updated rfl hsaved hroute hnext hcreated⟩
    · next hid =>
      obtain ⟨w', hholds', htells⟩ := h.told r hr
      have hother : x.saves r.id = false :=
        Bool.eq_false_iff.mpr fun hsaves => hid (hsaved.eq_of_saves (.inr hroute) hsaves)
      exact ⟨w', hholds', htells.other hother⟩
  · have hstored : ∃ r ∈ rows, r.id = id := by
      rcases List.mem_append.mp hy with hy | hy
      · exact h.saved y hy id hid
      · obtain rfl := List.mem_singleton.mp hy
        have hrow : row.id = w.id := by simpa using List.find?_some hfind
        exact ⟨row, List.mem_of_find?_eq_some hfind,
          hrow.trans (hsaved.eq_of_saves (.inr hroute) hid).symm⟩
    exact List.mem_map.mp (hids ▸ List.mem_map.mpr hstored)

/-- A chronicle goes on with an exchange that saves a workflow or leaves the workflows alone. -/
theorem Chronicle.saving (h : Chronicle service history rows) {table : Table WorkflowRow}
    (hx : Saving service x (some rows) table) :
    ∃ rows', table = some rows' ∧ Chronicle service (history ++ [x]) rows' := by
  cases hx with
  | none hother => exact ⟨rows, rfl, h.other hother⟩
  | created hroute hsaved hholds hversion hcreated hfree =>
    exact ⟨_, rfl, h.created hroute hsaved hholds hversion hcreated hfree⟩
  | updated hroute hsaved hfind hversion hholds =>
    exact ⟨_, rfl, h.updated hroute hsaved hfind hversion hholds⟩

/-- The workflows of every stage that a service comes to are a chronicle of the exchanges, if no board nests
too deep. -/
theorem ComesTo.chronicle (hutc : outer.TellsUtc) (h : ComesTo service outer history s)
    (hshallow : ∀ x ∈ history, x.request.boardDepth ≤ mostDepth)
    (hrows : s.studio.store.workflows = some rows) : Chronicle service history rows := by
  induction h generalizing rows with
  | start outside =>
    cases hrows
    exact ⟨List.nodup_nil, fun _ h => (nomatch h), fun _ h => (nomatch h)⟩
  | outside _ _ ih => exact ih hshallow hrows
  | dropped _ hdrop ih =>
    rcases Store.dropTable_ok hdrop with rfl | rfl | rfl
    · cases hrows
    · exact ih hshallow hrows
    · exact ih hshallow hrows
  | @exchanged history s _ token r ih =>
    obtain ⟨hbefore, hlast⟩ := List.forall_mem_append.mp hshallow
    have hsaving := @saving_exchange _ service outer r hutc (hlast _ (List.mem_singleton_self _)) token s
    rw [hrows] at hsaving
    cases htable : s.studio.store.workflows with
    | none =>
      rw [htable] at hsaving
      cases hsaving
    | some before =>
      rw [htable] at hsaving
      obtain ⟨after, hafter, hchronicle⟩ := (ih hbefore htable).saving hsaving
      exact Option.some.inj hafter ▸ hchronicle

/-! ## What is answered about a stored workflow -/

/-- A workflow that a row holds can be sent. -/
theorem isSendable_of_holds (h : row.Holds w) : Response.isSendable (dumpWorkflow w) = true :=
  isSendable_dumpWorkflow h.takes h.regular.warnings

/-- A workflow is answered as it is found. -/
theorem dumpWorkflow_settled (w : Workflow) : dumpWorkflow w.settled = dumpWorkflow w :=
  w.dump_settled "actionKind"

/-- The workflows that one row holds are answered alike. -/
theorem dumpWorkflow_of_holds (h : row.Holds w) (h' : row.Holds w') : dumpWorkflow w = dumpWorkflow w' := by
  have hsettled := Except.ok.inj (h.toWorkflow.symm.trans h'.toWorkflow)
  rw [← dumpWorkflow_settled, hsettled, dumpWorkflow_settled]

/-- The list of workflows is answered with the workflows that the rows hold, the latest created first. -/
theorem answer?_listWorkflows {held : WorkflowRow → Workflow} (hheld : ∀ r ∈ rows, r.Holds (held r))
    (hrows : s.studio.store.workflows = some rows) (token : Text)
    (hroute : r.endpoint? = some .listWorkflows) :
    (handle service outer token r s).2.bind Response.answer? =
      some (.arr ((rows.mergeSort fun a b => b.createdAt ≤ a.createdAt).map fun r =>
        dumpWorkflow (held r))) := by
  have hfound := Store.listWorkflows_eq hrows fun r hr => (hheld r hr).toWorkflow
  have hanswer : (answer service outer token r (Target.read r.target) s .listWorkflows).2 =
      .ok (.arr ((rows.mergeSort fun a b => b.createdAt ≤ a.createdAt).map fun r =>
        dumpWorkflow (held r))) := by
    rw [answer, hfound]
    change Except.ok (Json.arr (List.map dumpWorkflow (List.map (fun r => (held r).settled) _))) = _
    rw [List.map_map]
    exact congrArg (fun documents => Except.ok (Json.arr documents))
      (List.map_congr_left fun r _ => dumpWorkflow_settled (held r))
  refine answer?_of_value hroute hanswer ?_
  rw [isSendable_arr, List.all_map, List.all_eq_true]
  exact fun r hr => isSendable_of_holds (hheld r (List.mem_mergeSort.mp hr))

/-- The workflow that a row holds is told once among those that rows with distinct ids hold. -/
theorem filter_documents {held : WorkflowRow → Workflow} (hheld : ∀ r ∈ rows, r.Holds (held r))
    (hids : (rows.map WorkflowRow.id).Nodup) (hrow : row ∈ rows) :
    (rows.map fun r => dumpWorkflow (held r)).filter (idIn? · = some row.id) =
      [dumpWorkflow (held row)] := by
  have hown : rows.filter (fun r => idIn? (dumpWorkflow (held r)) = some row.id) =
      rows.filter (·.id = row.id) :=
    List.filter_congr fun r hr => decide_eq_decide.mpr (by
      rw [idIn?_dumpWorkflow, ← (hheld r hr).id_eq, Option.some.injEq])
  rw [List.filter_map]
  change (rows.filter fun r => decide (idIn? (dumpWorkflow (held r)) = some row.id)).map _ = _
  rw [hown, Store.filter_key hids hrow, List.map_singleton]

/-- A stored workflow is answered as it was saved, wherever it is asked for. -/
theorem Chronicle.serves (h : Chronicle service history rows)
    (hrows : s.studio.store.workflows = some rows) (hrow : row ∈ rows) (hholds : row.Holds w) :
    Serves service outer s row.id (dumpWorkflow w) where
  workflow := fun token r hroute => by
    refine answer?_of_value hroute ?_ (isSendable_of_holds hholds)
    have hfound := hholds.getWorkflow hrows (hholds.id_eq ▸ Store.find?_key h.ids hrow)
    rw [answer, hholds.id_eq, hfound]
    exact congrArg Except.ok (dumpWorkflow_settled w)
  definition := fun token r hroute => by
    have hsendable : Response.isSendable w.definition.dump = true :=
      isSendable_iff.mpr ⟨isFinite_definition w.definition, hholds.takes.definition⟩
    refine answer?_of_value hroute ?_ hsendable
    have hfound := hholds.getDefinition hrows (hholds.id_eq ▸ Store.find?_key h.ids hrow)
    rw [answer, hholds.id_eq, hfound]
    exact congrArg Except.ok w.definition.dump_settled
  entry := fun token r hroute => by
    have hnonempty : Nonempty Workflow := ⟨w⟩
    choose! held hheld _ using h.told
    let listed := rows.mergeSort fun a b => decide (b.createdAt ≤ a.createdAt)
    have hids : (listed.map WorkflowRow.id).Nodup :=
      ((List.mergeSort_perm rows _).map WorkflowRow.id).nodup_iff.mpr h.ids
    have hlisted : ∀ r ∈ listed, r.Holds (held r) := fun r hr => hheld r (List.mem_mergeSort.mp hr)
    refine ⟨_, answer?_listWorkflows hheld hrows token hroute, ?_⟩
    rw [filter_documents hlisted hids (List.mem_mergeSort.mpr hrow),
      dumpWorkflow_of_holds (hheld row hrow) hholds]

/-! ## Boards with errors -/

variable {submission : Workflow.Submission}

/-- A board with errors has no record. -/
theorem recordOf_of_errors (herrors : (submission.board.check (some service.registry)).errors ≠ [])
    (id : Text) (version : Int) (createdAt : Option Stamp) (now : Stamp) (s : Stage σ) :
    recordOf service submission id version createdAt now s =
      (s, .error (refusedBoard (submission.board.check (some service.registry)).errors)) := by
  rw [recordOf]
  exact if_neg fun hnone => herrors (List.isEmpty_iff.mp hnone)

/-- A board with errors is not saved as a new workflow, which takes an id and nothing else. -/
theorem createWorkflow_of_errors
    (herrors : (submission.board.check (some service.registry)).errors ≠ []) (now : Stamp) (s : Stage σ) :
    createWorkflow service submission now s =
      ({ s with studio := (s.studio.draw .workflow).1 },
        .error (refusedBoard (submission.board.check (some service.registry)).errors)) := by
  rw [createWorkflow]
  dsimp only
  rw [recordOf_of_errors herrors]
  rfl

/-- A board with errors is not saved over a workflow that is found. -/
theorem updateWorkflow_of_errors
    (herrors : (submission.board.check (some service.registry)).errors ≠ [])
    (hfound : s.studio.store.getWorkflow id = .ok (some w)) (now : Stamp) :
    updateWorkflow service id submission now s =
      (s, .error (refusedBoard (submission.board.check (some service.registry)).errors)) := by
  rw [updateWorkflow, hfound]
  change (recordOf service submission id _ _ now s).andThen _ = _
  rw [recordOf_of_errors herrors]
  rfl

/-- No workflow is saved under an id that is not found. -/
theorem updateWorkflow_of_none (hfound : s.studio.store.getWorkflow id = .ok none)
    (submission : Workflow.Submission) (now : Stamp) :
    updateWorkflow service id submission now s = (s, .error (.saying 404 (text noWorkflow))) := by
  rw [updateWorkflow, hfound]
  rfl

/-- A refusal is sent with its status if its detail can be sent. -/
theorem status_of_refused {e : Endpoint} {token : Text} {status : Nat} {detail : Json}
    (hroute : r.endpoint? = some e)
    (hproblem : (answer service outer token r (Target.read r.target) s e).2 =
      .error (.refused status detail))
    (hstatus : status ≠ 500) (hsendable : Response.isSendable detail = true) :
    ∃ response, (handle service outer token r s).2 = some response ∧ response.status = status ∧
      response.content = .document (.obj [(text "detail", detail)]) := by
  rw [handle_of_endpoint hroute, hproblem]
  exact ⟨_, rfl, @send_of_canBeSent service r (.ofDocument status (.obj [(text "detail", detail)]) [])
    (method_of_endpoint hroute).2 hstatus (by
      change Response.isSendable (.obj [(text "detail", detail)]) = true
      simp [hsendable])⟩

/-- A request with a board with errors is refused: it may take an id and changes nothing else, and it is
told the errors if they are texts of characters. -/
def Refused (service : Service) (outer : Surroundings σ) (token : Text) (r : Request) (s : Stage σ)
    (errors : List Text) : Prop :=
  (∃ ids, (handle service outer token r s).1 = { s with studio := { s.studio with ids := ids } }) ∧
    ((∀ t ∈ errors, t.isScalar = true) →
      ∃ response, (handle service outer token r s).2 = some response ∧ response.status = 422 ∧
        response.content =
          .document (.obj [(text "detail", .obj [(text "errors", Workflow.dumpTexts errors)])]))

/-- A request that has the answer of a board with errors is refused. -/
theorem refused_of_answer {e : Endpoint} {token : Text} {errors : List Text} (ids : Ids)
    (hroute : r.endpoint? = some e)
    (hanswer : answer service outer token r (Target.read r.target) s e =
      ({ s with studio := { s.studio with ids := ids } }, .error (refusedBoard errors))) :
    Refused service outer token r s errors := by
  refine ⟨⟨ids, by rw [handle_of_endpoint hroute, hanswer]⟩, fun hscalar => ?_⟩
  refine status_of_refused hroute (congrArg Prod.snd hanswer) (by decide) ?_
  simpa [Workflow.dumpTexts] using hscalar

/-- In every stage to which a service comes that still has its table of workflows, each stored workflow is
found as the history of exchanges tells it: with one exchange that created it and from which it has its time
of creation, with a version that counts those that updated it, and otherwise as the last that saved it, whose
request it records and whose answer it gives to every later request. A request with a board with errors is
refused, unless it is about a workflow that is not stored, of which it is told that there is none. -/
theorem workflows_as_saved (hutc : outer.TellsUtc) (h : ComesTo service outer history s)
    (hshallow : ∀ x ∈ history, x.request.boardDepth ≤ mostDepth)
    (hrows : s.studio.store.workflows = some rows) :
    (∀ row ∈ rows, ∃ w, row.toWorkflow = .ok w.settled ∧ Tells service history row.id w ∧
      Serves service outer s row.id (dumpWorkflow w)) ∧
    (∀ token r submission, r.submission? = some submission →
      (submission.board.check (some service.registry)).errors ≠ [] →
      (r.endpoint? = some .createWorkflow ∨ ∃ row ∈ rows, r.endpoint? = some (.updateWorkflow row.id)) →
      Refused service outer token r s (submission.board.check (some service.registry)).errors) ∧
    (∀ token r submission id, r.submission? = some submission →
      r.endpoint? = some (.updateWorkflow id) → (∀ row ∈ rows, row.id ≠ id) →
      r.target.isScalar = true →
      (handle service outer token r s).1 = s ∧
        (handle service outer token r s).2.map Response.status = some 404) := by
  have hchronicle := h.chronicle hutc hshallow hrows
  refine ⟨fun row hrow => ?_, fun token r submission hread herrors hroute => ?_,
    fun token r submission id hread hroute hmissing htarget => ?_⟩
  · obtain ⟨w, hholds, htells⟩ := hchronicle.told row hrow
    exact ⟨w, hholds.toWorkflow, htells, hchronicle.serves hrows hrow hholds⟩
  · rcases hroute with hroute | ⟨row, hrow, hroute⟩
    · refine refused_of_answer (s.studio.draw .workflow).1.ids hroute ?_
      rw [answer, submission?_iff_required.mp hread]
      exact createWorkflow_of_errors herrors _ s
    · obtain ⟨w, hholds, -⟩ := hchronicle.told row hrow
      have hfound : s.studio.store.getWorkflow row.id = .ok (some w.settled) :=
        hholds.id_eq ▸ hholds.getWorkflow hrows (hholds.id_eq ▸ Store.find?_key hchronicle.ids hrow)
      refine refused_of_answer s.studio.ids hroute ?_
      rw [answer, submission?_iff_required.mp hread]
      exact updateWorkflow_of_errors herrors hfound _
  · have hid : Utf8.unencodable? id = none :=
      Utf8.unencodable?_eq_none.mpr (isScalar_of_updateWorkflow htarget (destination_of_endpoint hroute))
    have hfind : rows.find? (·.id = id) = none := by simpa using hmissing
    have hfound : s.studio.store.getWorkflow id = .ok none := by
      rw [Store.getWorkflow, Store.workflowRow?_eq hrows hid, hfind]
      rfl
    have hanswer : answer service outer token r (Target.read r.target) s (.updateWorkflow id) =
        (s, .error (.saying 404 (text noWorkflow))) := by
      rw [answer, submission?_iff_required.mp hread]
      exact updateWorkflow_of_none hfound submission _
    refine ⟨by rw [handle_of_endpoint hroute, hanswer], ?_⟩
    obtain ⟨response, hresponse, hstatus, -⟩ :=
      status_of_refused hroute (congrArg Prod.snd hanswer) (by decide) (by simp)
    exact Option.map_eq_some_iff.mpr ⟨response, hresponse, hstatus⟩

/-- A delay whose length is no number, on a node with some id. -/
def brokenDelay (id : Text) : Json := boardOf id (text "delay") [(text "seconds", .str (text "soon"))]

/-- Two boards with errors are refused otherwise: one that is to be saved over a workflow that is not stored,
of which it is told, and one whose error names half of a pair, which cannot be told. -/
theorem brokenDelay_otherwise :
    let s : Stage Nat := ⟨sampleService.newStudio, 0⟩
    let told := boardRequest "PUT" "/workflows/missing" (brokenDelay (text "a"))
    let untold := boardRequest "POST" "/workflows" (brokenDelay [.surrogate 0])
    (∃ history, ComesTo sampleService Dispatch.secondHour history s) ∧
      (∀ r ∈ [told, untold], r.boardDepth ≤ mostDepth ∧ (r.submission?.map fun submission =>
        (submission.board.check (some sampleService.registry)).errors.length) = some 1) ∧
      (handle sampleService Dispatch.secondHour [] told s).2.map Response.status = some 404 ∧
      (handle sampleService Dispatch.secondHour [] untold s).2.map Response.status = some 500 :=
  ⟨⟨[], .start 0⟩, by decide +kernel, by decide +kernel, by decide +kernel⟩

/-- A request that saves the board as a new workflow, and one that saves it again over the workflow. -/
def saving : List Request :=
  [boardRequest "POST" "/workflows" endlessSwitch, boardRequest "PUT" "/workflows/wf-1" endlessSwitch]

/-- The stage to which these requests lead. -/
def savedTwice : Stage Nat :=
  saving.foldl (fun s r => (handle sampleService Dispatch.secondHour [] r s).1) ⟨sampleService.newStudio, 0⟩

/-- The workflow that was saved twice has the second version, and is answered as it was saved then. A board
with an error is not saved besides it. -/
theorem savedTwice_served :
    ∃ history w, ComesTo sampleService Dispatch.secondHour history savedTwice ∧
      history.map (·.request) = saving ∧ (∀ x ∈ history, x.request.boardDepth ≤ mostDepth) ∧
      w.version = 2 ∧ Tells sampleService history (text "wf-1") w ∧
      Serves sampleService Dispatch.secondHour savedTwice (text "wf-1") (dumpWorkflow w) ∧
      ∃ errors ≠ [], Refused sampleService Dispatch.secondHour []
        (boardRequest "POST" "/workflows" (brokenDelay (text "a"))) savedTwice errors := by
  obtain ⟨history, hcomes, hrequests⟩ : ∃ history,
      ComesTo sampleService Dispatch.secondHour history savedTwice ∧ history.map (·.request) = saving :=
    ⟨_, ((ComesTo.start 0).exchanged [] _).exchanged [] _, rfl⟩
  have hdepths : ∀ r ∈ saving, r.boardDepth ≤ mostDepth := by decide +kernel
  have hshallow : ∀ x ∈ history, x.request.boardDepth ≤ mostDepth := fun x hx =>
    hdepths x.request (hrequests ▸ List.mem_map_of_mem hx)
  have htable : savedTwice.studio.store.workflows.map (·.map fun r => (r.id, r.version)) =
      some [(text "wf-1", 2)] := by decide +kernel
  obtain ⟨rows, hrows, hlisted⟩ := Option.map_eq_some_iff.mp htable
  obtain ⟨row, hrow, hpair⟩ := List.mem_map.mp (hlisted ▸ List.mem_singleton_self _)
  obtain ⟨hid, hversion⟩ := Prod.mk.inj hpair
  obtain ⟨hstored, hrefused, -⟩ := workflows_as_saved (fun _ => ⟨_, rfl⟩) hcomes hshallow hrows
  obtain ⟨w, hfound, htells, hserves⟩ := hstored row hrow
  have hbroken : (boardRequest "POST" "/workflows" (brokenDelay (text "a"))).submission?.map
      (fun submission => (submission.board.check (some sampleService.registry)).errors.isEmpty) =
        some false := by decide +kernel
  obtain ⟨submission, hread, herrors⟩ := Option.map_eq_some_iff.mp hbroken
  have hsome : (submission.board.check (some sampleService.registry)).errors ≠ [] := fun hnone => by
    rw [hnone] at herrors
    cases herrors
  exact ⟨history, w, hcomes, hrequests, hshallow, (Store.toWorkflow_ok hfound).1.trans hversion,
    hid ▸ htells, hid ▸ hserves, _, hsome, hrefused [] _ submission hread hsome (.inl (by decide +kernel))⟩

end Web

end Showrunner
