import Mathlib.Data.List.NodupEquivFin
import Showrunner.Proofs.Board.Links
import Showrunner.Proofs.Board.Warnings

/-!
# Which branches are renamed

The connections that leave a node become its branches one by one. A connection keeps its authored label
unless a branch in front of it has that label, and then the label gets a number. A label that is authored
once can be lost in this way too: it may be what an earlier label became when it got its number. But the
labels in front of such a label lead back, number by number, to one that was authored several times, and of
that one the check warns. So a node without such a warning keeps all of its labels.
-/

namespace Showrunner

namespace Board

variable {b : Board} {id label : Text} {taken : List Text} {k n : Nat} {c : Connection}
  {e : Definition.Edge}

/-- A label stays as it is exactly if it is not taken. -/
theorem freeLabel_eq_self : freeLabel label n taken = label ↔ label ∉ taken :=
  ⟨fun h => h ▸ freeLabel_not_mem label n taken, fun h => if_neg h⟩

/-- A label that is taken gets a number. -/
theorem exists_number_of_mem (h : label ∈ taken) : ∃ j, freeLabel label n taken = numbered label j := by
  obtain ⟨j, -, -, heq, -⟩ := firstFree_eq_numbered label taken n taken.length
  exact ⟨j, (if_pos h).trans heq⟩

/-- A label is another one, followed by any number of numbers. -/
def Extends (label base : Text) : Prop := ∃ numbers : List Nat, label = numbers.foldl numbered base

/-- A label extends itself. -/
theorem extends_self (label : Text) : Extends label label := ⟨[], rfl⟩

/-- A label with one more number extends what it extended before. -/
theorem Extends.further {base : Text} (h : Extends label base) (j : Nat) :
    Extends (numbered label j) base := by
  obtain ⟨numbers, rfl⟩ := h
  exact ⟨numbers ++ [j], by rw [List.foldl_append]; rfl⟩

/-- A connection of a node at some position, and the branch that it becomes. -/
structure Becomes (b : Board) (id : Text) (k : Nat) (c : Connection) (e : Definition.Edge) : Prop where
  drawn : (b.leaving id)[k]? = some c
  branch : (b.branches id)[k]? = some e

/-- Each connection becomes a branch to its target, with the label that is free behind the branches in front
of it. -/
theorem getElem?_branchesFrom (position : Nat) (taken : List Text) (cs : List Connection) (k : Nat) :
    (branchesFrom position taken cs)[k]? = cs[k]?.map fun c =>
      ⟨freeLabel (c.authoredLabel (position + k)) (position + k)
        ((((branchesFrom position taken cs).take k).map (·.label)).reverse ++ taken), c.target⟩ := by
  induction cs generalizing position taken k with
  | nil => rfl
  | cons c rest ih =>
    cases k with
    | zero => rfl
    | succ k =>
      rw [branchesFrom, List.getElem?_cons_succ, List.getElem?_cons_succ, ih]
      simp [Nat.add_assoc, Nat.add_comm 1]

/-- The labels that are taken when the connection at a position gets its own. -/
def takenBefore (b : Board) (id : Text) (k : Nat) : List Text :=
  (((b.branches id).take k).map (·.label)).reverse

/-- The connection at a position becomes a branch to its target with the first label that is free. -/
theorem Becomes.eq (h : b.Becomes id k c e) :
    e = ⟨freeLabel (c.authoredLabel k) k (b.takenBefore id k), c.target⟩ := by
  have hbranch := getElem?_branchesFrom 0 [] (b.leaving id) k
  rw [← branches, h.drawn, h.branch, List.append_nil, Nat.zero_add] at hbranch
  exact Option.some.inj hbranch

/-- There are as many branches as connections. -/
theorem length_branches (b : Board) (id : Text) : (b.branches id).length = (b.leaving id).length := by
  rw [← List.length_map (f := (·.target)), branches, map_target_branchesFrom, List.length_map]

/-- Each connection becomes a branch. -/
theorem exists_becomes (h : (b.leaving id)[k]? = some c) : ∃ e, b.Becomes id k c e := by
  obtain ⟨hk, -⟩ := List.getElem?_eq_some_iff.mp h
  rw [← length_branches] at hk
  exact ⟨(b.branches id)[k], h, List.getElem?_eq_getElem hk⟩

/-- Each branch in front of a position is what a connection became. -/
theorem mem_takenBefore : label ∈ b.takenBefore id k ↔ ∃ j < k, ∃ c e, b.Becomes id j c e ∧ e.label = label := by
  rw [takenBefore, List.mem_reverse, List.mem_map]
  constructor
  · rintro ⟨e, he, rfl⟩
    obtain ⟨j, hj, rfl⟩ := List.mem_take_iff_getElem.mp he
    obtain ⟨hjk, hbranches⟩ := Nat.lt_min.mp hj
    have hleaving : j < (b.leaving id).length := b.length_branches id ▸ hbranches
    exact ⟨j, hjk, _, _, ⟨List.getElem?_eq_getElem hleaving, List.getElem?_eq_getElem hbranches⟩, rfl⟩
  · rintro ⟨j, hj, c, e, h, rfl⟩
    refine ⟨e, List.mem_iff_getElem?.mpr ⟨j, ?_⟩, rfl⟩
    rw [List.getElem?_take_of_lt hj, h.branch]

/-- The authored label at a position is that of the connection there. -/
theorem getElem?_authoredLabels (b : Board) (id : Text) (k : Nat) :
    (b.authoredLabels id)[k]? = (b.leaving id)[k]?.map (·.authoredLabel k) := by
  simp [authoredLabels, List.getElem?_zipIdx, Function.comp_def]

/-- A label occurs several times exactly if it is authored at two positions. -/
theorem one_lt_count_authoredLabels :
    1 < (b.authoredLabels id).count label ↔
      ∃ j k : Nat, j < k ∧ (b.authoredLabels id)[j]? = some label ∧ (b.authoredLabels id)[k]? = some label := by
  have hcount : 1 < (b.authoredLabels id).count label ↔
      List.Duplicate label (b.authoredLabels id) :=
    List.replicate_sublist_iff.symm.trans List.duplicate_iff_sublist.symm
  rw [hcount, List.duplicate_iff_exists_distinct_get]
  constructor
  · rintro ⟨j, k, hjk, hj, hk⟩
    exact ⟨j, k, hjk, by rw [hj]; exact List.getElem?_eq_getElem j.isLt,
      by rw [hk]; exact List.getElem?_eq_getElem k.isLt⟩
  · rintro ⟨j, k, hjk, hj, hk⟩
    obtain ⟨hjlt, hj⟩ := List.getElem?_eq_some_iff.mp hj
    obtain ⟨hklt, hk⟩ := List.getElem?_eq_some_iff.mp hk
    exact ⟨⟨j, hjlt⟩, ⟨k, hklt⟩, hjk, hj.symm, hk.symm⟩

/-- A connection keeps its authored label exactly if no branch in front of it has the label. -/
theorem Becomes.label_eq_iff (h : b.Becomes id k c e) :
    e.label = c.authoredLabel k ↔ c.authoredLabel k ∉ b.takenBefore id k := by
  rw [h.eq]
  exact freeLabel_eq_self

/-- The authored label of a connection at its position. -/
theorem Becomes.authored (h : b.Becomes id k c e) :
    (b.authoredLabels id)[k]? = some (c.authoredLabel k) := by
  rw [getElem?_authoredLabels, h.drawn, Option.map_some]

/-- A label that is lost extends one that was authored several times. -/
theorem Becomes.extends_repeated (h : b.Becomes id k c e) (hlost : e.label ≠ c.authoredLabel k) :
    ∃ base, 1 < (b.authoredLabels id).count base ∧ Extends (c.authoredLabel k) base := by
  induction k using Nat.strong_induction_on generalizing c e with
  | _ k ih =>
    rw [Ne, h.label_eq_iff, not_not] at hlost
    obtain ⟨j, hjk, c', e', h', hlabel⟩ := mem_takenBefore.mp hlost
    by_cases hkept : e'.label = c'.authoredLabel j
    · -- an earlier connection has the same authored label
      have hj := h'.authored
      rw [← hkept, hlabel] at hj
      exact ⟨_, one_lt_count_authoredLabels.mpr ⟨j, k, hjk, hj, h.authored⟩, extends_self _⟩
    · -- an earlier label became this one when it got its number
      obtain ⟨base, hrepeated, hextends⟩ := ih j hjk h' hkept
      rw [h'.label_eq_iff, not_not] at hkept
      obtain ⟨number, hnumber⟩ := exists_number_of_mem (n := j) hkept
      have hlast : c.authoredLabel k = numbered (c'.authoredLabel j) number := by
        rw [← hlabel, h'.eq, hnumber]
      exact ⟨base, hrepeated, hlast ▸ hextends.further number⟩

/-- Two branches of a node do not share a label. -/
theorem Becomes.label_ne {j : Nat} {c' : Connection} {e' : Definition.Edge} (h : b.Becomes id k c e)
    (h' : b.Becomes id j c' e') (hjk : j < k) : e'.label ≠ e.label := by
  intro hsame
  have hfree : e.label ∉ b.takenBefore id k := by
    rw [h.eq]
    exact freeLabel_not_mem _ _ _
  exact hfree (mem_takenBefore.mpr ⟨j, hjk, c', e', h', hsame⟩)

/-- Of several connections with the same authored label one loses it. -/
theorem exists_lost (h : 1 < (b.authoredLabels id).count label) :
    ∃ k c e, b.Becomes id k c e ∧ e.label ≠ c.authoredLabel k := by
  obtain ⟨j, k, hjk, hj, hk⟩ := one_lt_count_authoredLabels.mp h
  rw [getElem?_authoredLabels] at hj hk
  obtain ⟨c', hc', hj⟩ := Option.map_eq_some_iff.mp hj
  obtain ⟨c, hc, hk⟩ := Option.map_eq_some_iff.mp hk
  obtain ⟨e', h'⟩ := exists_becomes hc'
  obtain ⟨e, h⟩ := exists_becomes hc
  by_cases hkept : e'.label = c'.authoredLabel j
  · refine ⟨k, c, e, h, fun hsame => h.label_ne h' hjk ?_⟩
    rw [hkept, hj, hsame, hk]
  · exact ⟨j, c', e', h', hkept⟩

/-- The branches that are drawn come first among the edges of a compiled node, one for each connection and
to its target. A branch has the authored label of its connection exactly if no branch in front of it has that
label; if it has lost it, the authored label extends one of which the check warns at this node. So a label
that extends none of these leads where it was authored to lead, and some label of the node is lost exactly if
the check warns of one. -/
theorem branches_renamed (b : Board) (registry : Option Registry) (id name : Text) (version : Int) :
    ∀ u ∈ (b.compile id name version).nodes,
      let warned := fun label => (Warning.repeatedLabel u.1 label).message ∈ (b.check registry).warnings
      b.branches u.1 <+: u.2.edges ∧
      (∀ k c, (b.leaving u.1)[k]? = some c → ∃ e, b.Becomes u.1 k c e) ∧
      (∀ k c e, b.Becomes u.1 k c e →
        e.target = c.target ∧
        (e.label = c.authoredLabel k ↔
          ∀ j < k, ∀ c' e', b.Becomes u.1 j c' e' → e'.label ≠ c.authoredLabel k) ∧
        (e.label ≠ c.authoredLabel k → ∃ base, warned base ∧ Extends (c.authoredLabel k) base) ∧
        ((∀ base, warned base → ¬Extends (c.authoredLabel k) base) →
          ⟨c.authoredLabel k, c.target⟩ ∈ u.2.edges)) ∧
      ((∃ label, warned label) ↔ ∃ k c e, b.Becomes u.1 k c e ∧ e.label ≠ c.authoredLabel k) := by
  intro u hu warned
  have hid : u.1 ∈ b.nodes.map Node.id := (mem_map_fst_compile.mp (List.mem_map_of_mem hu)).1
  have hwarned : ∀ label, warned label ↔ 1 < (b.authoredLabels u.1).count label := fun label =>
    (message_mem_check.trans repeatedLabel_mem_warnings).trans (and_iff_right hid)
  have hlost : ∀ k c e, b.Becomes u.1 k c e → e.label ≠ c.authoredLabel k →
      ∃ base, warned base ∧ Extends (c.authoredLabel k) base := fun k c e h hne => by
    obtain ⟨base, hrepeated, hextends⟩ := h.extends_repeated hne
    exact ⟨base, (hwarned base).mpr hrepeated, hextends⟩
  have hdrawn := (edges_compile hu).1
  refine ⟨hdrawn, fun k c => exists_becomes, fun k c e h => ⟨?_, ?_, hlost k c e h, fun hapart => ?_⟩,
    fun ⟨label, hlabel⟩ => exists_lost ((hwarned label).mp hlabel), fun ⟨k, c, e, h, hne⟩ => ?_⟩
  · rw [h.eq]
  · rw [h.label_eq_iff, mem_takenBefore]
    push Not
    rfl
  · have hkept : e.label = c.authoredLabel k := by
      by_contra hne
      obtain ⟨base, hbase, hextends⟩ := hlost k c e h hne
      exact hapart base hbase hextends
    have hedge : e = ⟨c.authoredLabel k, c.target⟩ := by
      rw [← hkept, h.eq]
    exact hedge ▸ hdrawn.mem (List.mem_of_getElem? h.branch)
  · obtain ⟨base, hbase, -⟩ := hlost k c e h hne
    exact ⟨base, hbase⟩

/-- A node with two connections of one label, and a third whose label is what the second one becomes. -/
def crowded : Board :=
  { nodes := [⟨text "s", text "sequence", []⟩]
    connections := [⟨startId, text "s", none⟩, ⟨text "s", text "a", some (text "out")⟩,
      ⟨text "s", text "b", some (text "out")⟩, ⟨text "s", text "c", some (text "out-1")⟩] }

/-- The label of the third connection is lost, and the check warns of the label that it extends. -/
theorem crowded_extends :
    ∃ base, (Warning.repeatedLabel (text "s") base).message ∈
        (crowded.check (some (Registry.empty.withBuiltins []))).warnings ∧
      Extends (text "out-1") base := by
  obtain ⟨-, -, hbranches, -⟩ :=
    branches_renamed crowded (some (Registry.empty.withBuiltins [])) (text "d") (text "Untitled") 1 _ (.head _)
  have hthird : crowded.Becomes (text "s") 2 ⟨text "s", text "c", some (text "out-1")⟩
      ⟨text "out-1-2", text "c"⟩ := ⟨by decide, by decide⟩
  exact (hbranches 2 _ _ hthird).2.2.1 (by decide)

/-- The label of the third connection is authored once, and there is no warning of it, but it leads to where
the second connection leads. -/
theorem crowded_lost :
    (crowded.compile (text "d") (text "Untitled") 1).nodes.map (fun (i, n) => (i, n.edges)) =
      [(text "s", [⟨text "out", text "a"⟩, ⟨text "out-1", text "b"⟩, ⟨text "out-1-2", text "c"⟩])] ∧
    crowded.authoredLabels (text "s") = [text "out", text "out", text "out-1"] ∧
    (Warning.repeatedLabel (text "s") (text "out-1")).message ∉
      (crowded.check (some (Registry.empty.withBuiltins []))).warnings := by
  refine ⟨by decide, by decide, fun hwarned => ?_⟩
  have hrepeated := (repeatedLabel_mem_warnings.mp (message_mem_check.mp hwarned)).2
  exact absurd hrepeated (by decide)

end Board

end Showrunner
