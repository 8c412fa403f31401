import Showrunner.Proofs.Board.Links
import Showrunner.Proofs.Board.Settling

/-!
# Cases of switches

The branch of a case has its label from the value of the case: a string as it is, any other value as it is
written. Values that documents tell apart are written differently, so their labels differ, but for a string
that spells another value: the string `2` and the number are different cases with one label. Of cases with
one label a switch keeps the first that leads anywhere.
-/

namespace Showrunner

namespace Json

variable {v w : Json}

/-- A value whose numbers are in their one form, with distinct names in each object. -/
def IsFormed (v : Json) : Prop := ∃ most, v.Formed (fun _ => True) none most

/-- A value is a string that spells another value, which is none. -/
def Spells (v w : Json) : Prop := v = .str w.writeText ∧ ∀ t, w ≠ .str t

/-- One of two values is a string that spells the other. -/
def Confused (v w : Json) : Prop := v.Spells w ∨ w.Spells v

end Json

namespace Board

variable {b : Board} {id name : Text} {version : Int} {u : Text × Definition.Node} {v w : Json}

/-! ## Labels of values -/

/-- The label of a value that is no string is what the value is written as. -/
theorem caseLabel_eq_writeText (h : ∀ t, v ≠ .str t) : caseLabel v = v.writeText := by
  cases v with
  | str t => exact absurd rfl (h t)
  | _ => rfl

/-- A string has the label of a value that is none exactly if it spells it. -/
theorem caseLabel_str_eq_iff {t : Text} (h : ∀ s, w ≠ .str s) :
    caseLabel (.str t) = caseLabel w ↔ (Json.str t).Spells w := by
  rw [caseLabel_eq_writeText h]
  exact ⟨fun hlabel => ⟨congrArg Json.str hlabel, h⟩, fun hspells => Json.str.inj hspells.1⟩

/-- Values that documents tell apart have one label exactly if one is a string that spells the other. -/
theorem caseLabel_eq_iff (hv : v.IsFormed) (hw : w.IsFormed) (hne : v.respelled ≠ w.respelled) :
    caseLabel v = caseLabel w ↔ v.Confused w := by
  by_cases hstr : ∃ t, v = .str t
  · obtain ⟨t, rfl⟩ := hstr
    by_cases hstr' : ∃ s, w = .str s
    · -- two strings are their own labels
      obtain ⟨s, rfl⟩ := hstr'
      constructor
      · intro hlabel
        exact absurd (congrArg (fun t => (Json.str t).respelled) hlabel) hne
      · rintro (hspells | hspells)
        · exact absurd rfl (hspells.2 s)
        · exact absurd rfl (hspells.2 t)
    · push Not at hstr'
      rw [caseLabel_str_eq_iff hstr', Json.Confused, or_iff_left]
      exact fun hspells => absurd hspells.1 (hstr' _)
  · push Not at hstr
    by_cases hstr' : ∃ s, w = .str s
    · obtain ⟨s, rfl⟩ := hstr'
      rw [eq_comm, caseLabel_str_eq_iff hstr, Json.Confused, or_iff_right]
      exact fun hspells => absurd hspells.1 (hstr _)
    · -- no string at all: labels are written values, which can be read back
      push Not at hstr'
      obtain ⟨most, hv⟩ := hv
      obtain ⟨most', hw⟩ := hw
      rw [caseLabel_eq_writeText hstr, caseLabel_eq_writeText hstr']
      constructor
      · exact fun hwrite => absurd (hv.respelled_eq hw hwrite) hne
      · rintro (hspells | hspells)
        · exact absurd hspells.1 (hstr _)
        · exact absurd hspells.1 (hstr' _)

/-! ## Branches of cases -/

/-- The value of a case, null if it gives none. -/
def caseValue (case : Json) : Json := (case.field? (text "value")).getD .null

/-- Where a case leads, if anywhere. -/
def caseTarget? (case : Json) : Option Text := targetOf (case.field? (text "next"))

/-- The branch of a case has the label of its value and leads where the case leads. -/
theorem caseEdge?_eq (case : Json) :
    caseEdge? case = (caseTarget? case).map fun target => ⟨caseLabel (caseValue case), target⟩ := by
  cases case <;> rfl

/-- None of the branches of cases has a label exactly if no case that leads somewhere has it. -/
theorem find?_caseEdge?_eq_none {cases : List Json} {label : Text} :
    (cases.filterMap caseEdge?).find? (·.label = label) = none ↔
      ∀ case ∈ cases, (caseTarget? case).isSome = true → caseLabel (caseValue case) ≠ label := by
  simp only [List.find?_eq_none, List.mem_filterMap, caseEdge?_eq, Option.map_eq_some_iff,
    Option.isSome_iff_exists, decide_eq_true_eq]
  constructor
  · intro h case hcase ⟨target, htarget⟩
    exact h ⟨_, target⟩ ⟨case, hcase, target, htarget, rfl⟩
  · rintro h e ⟨case, hcase, target, htarget, rfl⟩
    exact h case hcase ⟨target, htarget⟩

/-- Under a label that is not drawn, a switch has the branch of the first case with the label. -/
theorem find?_edges_switch (hu : u ∈ (b.compile id name version).nodes) (hkind : u.2.kind = text "switch")
    {label : Text} (hdrawn : ∀ e ∈ b.branches u.1, e.label ≠ label) :
    u.2.edges.find? (·.label = label) =
      ((casesOf u.2.cfg).filterMap caseEdge?).find? (·.label = label) := by
  obtain ⟨n, -, rfl⟩ := List.mem_map.mp hu
  have hnone : (b.branches n.id).find? (·.label = label) = none :=
    List.find?_eq_none.mpr fun e he => by simpa using hdrawn e he
  have hnew : label ∉ (b.branches n.id).map (·.label) := fun hmem => by
    obtain ⟨e, he, hlabel⟩ := List.mem_map.mp hmem
    exact hdrawn e he hlabel
  change (b.branches n.id ++ unusedEdges ((b.branches n.id).map (·.label))
    (configEdges (b.compileNode n).kind n.config)).find? (·.label = label) = _
  rw [List.find?_append, hnone, Option.none_or, hkind, configEdges_switch, unusedEdges_eq_firstsBy,
    find?_firstsBy hnew]
  rfl

/-- A case that leads somewhere and has a label that is not drawn has its branch, unless a case before it has
the label and leads somewhere. -/
theorem mem_edges_switch (hu : u ∈ (b.compile id name version).nodes) (hkind : u.2.kind = text "switch")
    {before after : List Json} {case : Json} {target : Text}
    (hcases : casesOf u.2.cfg = before ++ case :: after) (htarget : caseTarget? case = some target)
    (hdrawn : ∀ e ∈ b.branches u.1, e.label ≠ caseLabel (caseValue case))
    (hapart : ∀ earlier ∈ before, (caseTarget? earlier).isSome = true →
      caseLabel (caseValue earlier) ≠ caseLabel (caseValue case)) :
    ⟨caseLabel (caseValue case), target⟩ ∈ u.2.edges := by
  have hedge : caseEdge? case = some ⟨caseLabel (caseValue case), target⟩ := by
    rw [caseEdge?_eq, htarget, Option.map_some]
  have hfound := find?_edges_switch hu hkind hdrawn
  rw [hcases, List.filterMap_append, List.find?_append, find?_caseEdge?_eq_none.mpr hapart,
    Option.none_or, List.filterMap_cons_some hedge, List.find?_cons_of_pos (by simp)] at hfound
  exact List.mem_of_find?_eq_some hfound

/-- In a switch, the values of two cases that documents tell apart have one label exactly if one is a string
that spells the other. A case that leads somewhere has its branch if its label is not drawn and its value is
apart from the values of the cases before it that lead somewhere, and neither spells nor is spelled by one of
them. -/
theorem cases_branch (b : Board) (id name : Text) (version : Int) :
    ∀ u ∈ (b.compile id name version).nodes, u.2.kind = text "switch" →
      (∀ case ∈ casesOf u.2.cfg, (caseValue case).IsFormed) →
      (∀ case ∈ casesOf u.2.cfg, ∀ other ∈ casesOf u.2.cfg,
        (caseValue case).respelled ≠ (caseValue other).respelled →
        (caseLabel (caseValue case) = caseLabel (caseValue other) ↔
          (caseValue case).Confused (caseValue other))) ∧
      ∀ before case after target, casesOf u.2.cfg = before ++ case :: after →
        caseTarget? case = some target →
        (∀ e ∈ b.branches u.1, e.label ≠ caseLabel (caseValue case)) →
        (∀ earlier ∈ before, (caseTarget? earlier).isSome = true →
          (caseValue earlier).respelled ≠ (caseValue case).respelled ∧
            ¬(caseValue earlier).Confused (caseValue case)) →
        ⟨caseLabel (caseValue case), target⟩ ∈ u.2.edges := by
  intro u hu hkind hformed
  have hlabel : ∀ case ∈ casesOf u.2.cfg, ∀ other ∈ casesOf u.2.cfg,
      (caseValue case).respelled ≠ (caseValue other).respelled →
      (caseLabel (caseValue case) = caseLabel (caseValue other) ↔
        (caseValue case).Confused (caseValue other)) := fun case hcase other hother =>
    caseLabel_eq_iff (hformed case hcase) (hformed other hother)
  refine ⟨hlabel, fun before case after target hcases htarget hdrawn hapart => ?_⟩
  -- a case before this one with its label would be confused with it
  refine mem_edges_switch hu hkind hcases htarget hdrawn fun earlier hearlier hleads hsame => ?_
  obtain ⟨hne, hconfused⟩ := hapart earlier hearlier hleads
  exact hconfused ((hlabel earlier (by simp [hcases, hearlier]) case (by simp [hcases]) hne).mp hsame)

/-- A case with a value and a node to which it leads. -/
def caseOf (v : Json) (target : Text) : Json := .obj [(text "value", v), (text "next", .str target)]

/-- A case for a number, one for the string that spells it, and one for null. -/
def mistakableCases : List Json :=
  [caseOf (.int 2) (text "a"), caseOf (.str (text "2")) (text "b"), caseOf .null (text "c")]

/-- A switch of which the string of one case spells the number of another. -/
def mistakable : Board :=
  { nodes := [⟨text "s", text "switch", [(text "cases", .arr mistakableCases)]⟩]
    connections := [⟨startId, text "s", none⟩] }

/-- The case for null has its branch behind the other two. -/
theorem mistakable_null : ∃ u ∈ (mistakable.compile (text "d") (text "Untitled") 1).nodes,
    ⟨text "null", text "c"⟩ ∈ u.2.edges := by
  have hformed : ∀ case ∈ mistakableCases, (caseValue case).IsFormed := by
    simp only [mistakableCases, List.forall_mem_cons]
    exact ⟨⟨0, .int nofun⟩, ⟨0, .str trivial⟩, ⟨0, .null⟩, nofun⟩
  have hnumber : ¬(Json.int 2).Confused .null := fun hconfused =>
    hconfused.elim (fun h => nomatch h.1) fun h => nomatch h.1
  have hstring : ¬(Json.str (text "2")).Confused .null := fun hconfused =>
    hconfused.elim (fun h => absurd (Json.str.inj h.1) (by decide)) fun h => nomatch h.1
  obtain ⟨-, hbranch⟩ := cases_branch mistakable (text "d") (text "Untitled") 1 _ (.head _) rfl hformed
  refine ⟨_, .head _, hbranch [_, _] (caseOf .null (text "c")) [] (text "c") rfl rfl nofun ?_⟩
  simp only [List.forall_mem_cons]
  exact ⟨fun _ => ⟨nofun, hnumber⟩, fun _ => ⟨nofun, hstring⟩, nofun⟩

/-- The string and the number are apart and no connection leaves the switch, but their cases have one label,
and no edge leads to the node of the case for the string. -/
theorem mistakable_lost : ∃ u ∈ (mistakable.compile (text "d") (text "Untitled") 1).nodes,
    u.2.kind = text "switch" ∧ casesOf u.2.cfg = mistakableCases ∧ mistakable.branches u.1 = [] ∧
    (Json.str (text "2")).respelled ≠ (Json.int 2).respelled ∧
    caseLabel (.str (text "2")) = caseLabel (.int 2) ∧
    u.2.edges = [⟨text "2", text "a"⟩, ⟨text "null", text "c"⟩] :=
  ⟨_, .head _, rfl, rfl, rfl, nofun, by decide, by decide⟩

end Board

end Showrunner
