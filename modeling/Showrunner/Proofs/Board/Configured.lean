import Showrunner.Proofs.Board.Cases
import Showrunner.Proofs.NodeKind.Checked

/-!
# Branches of typed configurations

The configuration of a filter or a switch is read twice: as a typed configuration when it is checked, and key
by key when its branches are compiled. A switch has the same branches in both readings. A filter has none that
the typed configuration does not have, and has all of them if no target is given only under the name of a
field: the typed configuration takes it from there too, but the compiler looks under the key alone.
-/

namespace Showrunner

open Reader

namespace NodeKind

/-- A text that a field holds, unless it is empty. -/
def filled? (t : Option Text) : Option Text := t.filter (!·.isEmpty)

/-- The branches to some targets, with their labels, where there is a target. -/
def labelled (targets : List (Text × Option Text)) : List Definition.Edge :=
  targets.filterMap fun (label, target) => target.map fun target => ⟨label, target⟩

/-- The branches of a filter. -/
def FilterConfig.edges (c : FilterConfig) : List Definition.Edge :=
  labelled [(text "true", filled? c.nextTrue), (text "false", filled? c.nextFalse)]

/-- The branches of a switch, one for each case. -/
def SwitchConfig.edges (c : SwitchConfig) : List Definition.Edge :=
  labelled (c.cases.map fun case => (Board.caseLabel case.value, filled? case.next))

end NodeKind

namespace Board

open NodeKind

variable {b : Board} {id name : Text} {version : Int} {cfg fields : Fields} {t : Option Text}

/-- A target is given under its key, or not under the name of its field either. -/
def TargetKeyed (cfg : Fields) (key field : String) : Prop :=
  Fields.get? cfg (text key) = none → targetOf (Fields.get? cfg (text field)) = none

/-- A field that is a text or null holds the target that is given under the first of its names. -/
theorem targetOf_given? {names : List String} (h : optionalText names fields = .valid t) :
    targetOf (names.findSome? fun name => Fields.get? fields (text name)) = filled? t := by
  rw [← map_snd_given?]
  rcases optional_eq_valid_iff.mp h with ⟨hgiven, rfl⟩ | ⟨⟨name, v⟩, hgiven, hread⟩
  · rw [hgiven]
    rfl
  · rw [hgiven, Option.map_some]
    cases v with
    | null =>
      cases hread
      rfl
    | str s =>
      cases hread
      cases s <;> rfl
    | _ => cases hread

/-! ## Switches -/

/-- A typed case has the value of the case and leads where it leads. -/
theorem case_of_read {case : Json} {typed : SwitchCase} (h : SwitchCase.read case = .valid typed) :
    caseValue case = typed.value ∧ caseTarget? case = filled? typed.next := by
  obtain ⟨fields, rfl, hread⟩ := record_eq_valid.mp h
  obtain ⟨_, next, hfirst, hnext, rfl⟩ := Verdict.seq_eq_valid.mp hread
  obtain ⟨value, hvalue, rfl⟩ := Verdict.functor_map_eq_valid.mp hfirst
  have htarget := targetOf_given? hnext
  rw [List.findSome?_singleton] at htarget
  refine ⟨?_, htarget⟩
  change (Fields.get? fields (text "value")).getD .null = value
  rcases optional_single_eq_valid_iff.mp hvalue with ⟨hnone, rfl⟩ | ⟨v, hsome, hread⟩
  · rw [hnone]
    rfl
  · cases hread
    rw [hsome]
    rfl

/-- Cases have the branches of typed cases. -/
theorem filterMap_caseEdge?_of_read {cases : List Json} {typed : List SwitchCase}
    (h : cases.map SwitchCase.read = typed.map .valid) :
    cases.filterMap caseEdge? =
      labelled (typed.map fun case => (caseLabel case.value, filled? case.next)) := by
  induction cases generalizing typed with
  | nil =>
    cases typed with
    | nil => rfl
    | cons _ _ => cases h
  | cons case rest ih =>
    cases typed with
    | nil => cases h
    | cons first more =>
      obtain ⟨hfirst, hmore⟩ := List.cons.inj h
      obtain ⟨hvalue, htarget⟩ := case_of_read hfirst
      have hrest := ih hmore
      rw [labelled] at hrest ⊢
      rw [List.map_cons, List.filterMap_cons, List.filterMap_cons, hrest, caseEdge?_eq, hvalue, htarget]

/-- The cases of a configuration are read as the typed cases. -/
theorem map_read_casesOf {typed : SwitchConfig} (h : SwitchConfig.read (.obj cfg) = .valid typed) :
    (casesOf cfg).map SwitchCase.read = typed.cases.map .valid := by
  obtain ⟨_, hobj, hread⟩ := record_eq_valid.mp h
  cases hobj
  obtain ⟨_, cases, hfirst, hcases, rfl⟩ := Verdict.seq_eq_valid.mp hread
  obtain ⟨expression, -, rfl⟩ := Verdict.functor_map_eq_valid.mp hfirst
  rw [casesOf]
  rcases optional_single_eq_valid_iff.mp hcases with ⟨hnone, rfl⟩ | ⟨v, hsome, hlist⟩
  · rw [hnone]
    rfl
  · obtain ⟨items, rfl, hitems⟩ := list_eq_valid.mp hlist
    rw [hsome]
    exact hitems

/-- A switch has the same branches in both readings. -/
theorem configEdges_of_switch {typed : SwitchConfig} (h : SwitchConfig.read (.obj cfg) = .valid typed) :
    configEdges (text "switch") cfg = typed.edges := by
  rw [configEdges_switch, filterMap_caseEdge?_of_read (map_read_casesOf h)]
  rfl

/-! ## Filters -/

/-- A filter has the branches to the targets that are given under their keys. -/
theorem configEdges_filter (cfg : Fields) :
    configEdges (text "filter") cfg =
      labelled [(text "true", targetOf (Fields.get? cfg (text "nextTrue"))),
        (text "false", targetOf (Fields.get? cfg (text "nextFalse")))] := rfl

/-- Without some of the targets there are no branches that there are not with them. -/
theorem labelled_sublist {fewer more : List (Text × Option Text)}
    (h : List.Forall₂ (fun a c => a.1 = c.1 ∧ (a.2 = c.2 ∨ a.2 = none)) fewer more) :
    (labelled fewer).Sublist (labelled more) := by
  induction h with
  | nil => exact List.Sublist.refl _
  | @cons a c _ _ hfirst _ ih =>
    obtain ⟨label, target⟩ := c
    obtain ⟨label, found⟩ := a
    obtain ⟨rfl, rfl | rfl⟩ := hfirst
    · cases found with
      | none => exact ih
      | some _ => exact ih.cons_cons _
    · cases target with
      | none => exact ih
      | some _ => exact ih.cons _

/-- Two branches with different labels are the same exactly if their targets are. -/
theorem labelled_eq_iff {label label' : Text} (hne : label ≠ label') {a a' c c' : Option Text} :
    labelled [(label, a), (label', a')] = labelled [(label, c), (label', c')] ↔ a = c ∧ a' = c' := by
  cases a <;> cases a' <;> cases c <;> cases c' <;> simp [labelled, hne, Ne.symm hne]

/-- A target that is given under its key or the name of its field is the one under its key, if there is
none only under the name of the field. Else there is none under its key. -/
theorem targetOf_key {key field : String} (h : optionalText [key, field] cfg = .valid t) :
    (targetOf (Fields.get? cfg (text key)) = filled? t ∨ targetOf (Fields.get? cfg (text key)) = none) ∧
      (targetOf (Fields.get? cfg (text key)) = filled? t ↔ TargetKeyed cfg key field) := by
  rw [← targetOf_given? h, TargetKeyed, List.findSome?_cons, List.findSome?_singleton]
  cases Fields.get? cfg (text key) with
  | none =>
    -- under the key there is no target, so there may be none under the name of the field
    exact ⟨.inr rfl, by rw [eq_comm]; simp [targetOf]⟩
  | some v => simp

/-- A filter has no branches that its typed configuration does not have, and all that it has exactly if no
target is given only under the name of its field. -/
theorem configEdges_of_filter {typed : FilterConfig} (h : FilterConfig.read (.obj cfg) = .valid typed) :
    (configEdges (text "filter") cfg).Sublist typed.edges ∧
      (configEdges (text "filter") cfg = typed.edges ↔
        TargetKeyed cfg "nextTrue" "next_true" ∧ TargetKeyed cfg "nextFalse" "next_false") := by
  obtain ⟨_, hobj, hread⟩ := record_eq_valid.mp h
  cases hobj
  obtain ⟨_, nextFalse, hrest, hfalse, rfl⟩ := Verdict.seq_eq_valid.mp hread
  obtain ⟨_, nextTrue, hfirst, htrue, rfl⟩ := Verdict.seq_eq_valid.mp hrest
  obtain ⟨expression, -, rfl⟩ := Verdict.functor_map_eq_valid.mp hfirst
  obtain ⟨htrue, hkeyed⟩ := targetOf_key htrue
  obtain ⟨hfalse, hkeyed'⟩ := targetOf_key hfalse
  rw [configEdges_filter, ← hkeyed, ← hkeyed']
  exact ⟨labelled_sublist (.cons ⟨rfl, htrue⟩ (.cons ⟨rfl, hfalse⟩ .nil)), labelled_eq_iff (by decide)⟩

/-! ## Nodes that pass the check -/

/-- The edges of a node are its drawn branches and then the branches that its configuration names, but for
those with a label in use. The configuration of a switch that passes the check names exactly the branches of
its typed configuration. That of a filter names no others, and all of them exactly if no target is given only
under the name of its field. -/
theorem branches_of_checked (b : Board) (id name : Text) (version : Int) (r : Registry)
    (descriptions : List (Text × Text)) :
    ∀ u ∈ (b.compile id name version).nodes,
      (r.withBuiltins descriptions).check u.2.kind (.obj u.2.cfg) = [] →
      u.2.edges = b.branches u.1 ++
        unusedEdges ((b.branches u.1).map (·.label)) (configEdges u.2.kind u.2.cfg) ∧
      (u.2.kind = text "filter" → ∃ typed, FilterConfig.read (.obj u.2.cfg) = .valid typed ∧
        (configEdges u.2.kind u.2.cfg).Sublist typed.edges ∧
        (configEdges u.2.kind u.2.cfg = typed.edges ↔
          TargetKeyed u.2.cfg "nextTrue" "next_true" ∧ TargetKeyed u.2.cfg "nextFalse" "next_false")) ∧
      (u.2.kind = text "switch" → ∃ typed, SwitchConfig.read (.obj u.2.cfg) = .valid typed ∧
        configEdges u.2.kind u.2.cfg = typed.edges) := by
  intro u hu hcheck
  refine ⟨?_, fun hkind => ?_, fun hkind => ?_⟩
  · obtain ⟨n, -, rfl⟩ := List.mem_map.mp hu
    rfl
  · rw [hkind] at hcheck ⊢
    obtain ⟨typed, hread⟩ := FilterConfig.exists_valid hcheck
    exact ⟨typed, hread, configEdges_of_filter hread⟩
  · rw [hkind] at hcheck ⊢
    obtain ⟨typed, hread⟩ := SwitchConfig.exists_valid hcheck
    exact ⟨typed, hread, configEdges_of_switch hread⟩

/-- A filter with a configuration. -/
def filtering (cfg : Fields) : Board :=
  { nodes := [⟨text "f", text "filter", cfg⟩], connections := [⟨startId, text "f", none⟩] }

/-- A filter with two targets under their keys, one of which is given under the name of its field as well, has
the branches of its typed configuration. -/
theorem filtering_keyed :
    let cfg : Fields := [(text "nextTrue", .str (text "a")), (text "next_true", .str (text "c")),
      (text "nextFalse", .str (text "b"))]
    ∃ typed, FilterConfig.read (.obj cfg) = .valid typed ∧
      typed.edges = [⟨text "true", text "a"⟩, ⟨text "false", text "b"⟩] := by
  intro cfg
  have hcheck : (Registry.empty.withBuiltins []).check (text "filter") (.obj cfg) = [] :=
    Registry.check_withBuiltins (.tail _ (.tail _ (.head _))) rfl _ _ _
  obtain ⟨-, hfilter, -⟩ := branches_of_checked (filtering cfg) (text "d") (text "Untitled") 1
    Registry.empty [] _ (.head _) hcheck
  obtain ⟨typed, hread, -, hagree⟩ := hfilter rfl
  have hedges : configEdges (text "filter") cfg = typed.edges := hagree.mpr ⟨nofun, nofun⟩
  exact ⟨typed, hread, hedges.symm⟩

/-- A filter with a target under the name of its field passes the check, and its typed configuration has a
branch, but the compiled node has none. -/
theorem filtering_unkeyed :
    let cfg : Fields := [(text "next_true", .str (text "a"))]
    (Registry.empty.withBuiltins []).check (text "filter") (.obj cfg) = [] ∧
    (∃ typed, FilterConfig.read (.obj cfg) = .valid typed ∧ typed.nextTrue = some (text "a") ∧
      typed.edges = [⟨text "true", text "a"⟩]) ∧
    ((filtering cfg).compile (text "d") (text "Untitled") 1).nodes.map (fun u => (u.2.kind, u.2.edges)) =
      [(text "filter", [])] :=
  ⟨rfl, ⟨_, rfl, rfl, rfl⟩, by decide⟩

end Board

end Showrunner
