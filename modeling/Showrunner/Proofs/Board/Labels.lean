import Mathlib.Data.List.Perm.Subperm
import Showrunner.Proofs.Board.FirstSeen
import Showrunner.Proofs.Text.Numeral

/-!
# Labels of branches

A label that is taken gets the first number with which it is free. There is one among as many
numbers as there are taken labels and one more, since different numbers give different labels. The
branches of a node therefore never share a label, neither those that are drawn nor those that the
configuration adds to them.
-/

namespace Showrunner

namespace Board

/-- Different numbers make different labels. -/
theorem numbered_injective (label : Text) : Function.Injective (numbered label) := fun _ _ h =>
  Text.ofNat_injective (List.append_cancel_left h)

/-- The search takes the first number with which the label is free, unless none of those that it
tries is. -/
theorem firstFree_eq_numbered (label : Text) (taken : List Text) (n tries : Nat) :
    ∃ j, n ≤ j ∧ j ≤ n + tries ∧ firstFree label taken n tries = numbered label j ∧
      (∀ i, n ≤ i → i < j → numbered label i ∈ taken) ∧
      (j < n + tries → numbered label j ∉ taken) := by
  induction tries generalizing n with
  | zero => exact ⟨n, Nat.le_refl n, by omega, rfl, by omega, by omega⟩
  | succ tries ih =>
    rw [firstFree]
    split
    · next htaken =>
      obtain ⟨j, hlow, hhigh, heq, hbelow, hfree⟩ := ih (n + 1)
      refine ⟨j, by omega, by omega, heq, fun i hi hij => ?_, fun hj => hfree (by omega)⟩
      by_cases hfirst : i = n
      · exact hfirst ▸ htaken
      · exact hbelow i (by omega) hij
    · next hfree => exact ⟨n, Nat.le_refl n, by omega, rfl, by omega, fun _ => hfree⟩

/-- Not all of more numbers than there are taken labels make taken labels. -/
theorem exists_free_number (label : Text) (taken : List Text) (n : Nat) :
    ∃ i, n ≤ i ∧ i ≤ n + taken.length ∧ numbered label i ∉ taken := by
  by_contra hnone
  push Not at hnone
  have hsub : (List.range' n (taken.length + 1)).map (numbered label) ⊆ taken := by
    intro candidate hcandidate
    obtain ⟨i, hi, rfl⟩ := List.mem_map.mp hcandidate
    obtain ⟨hlow, hhigh⟩ := List.mem_range'_1.mp hi
    exact hnone i hlow (by omega)
  have hnodup : ((List.range' n (taken.length + 1)).map (numbered label)).Nodup :=
    List.Nodup.map (numbered_injective label) (List.nodup_range')
  have hlength := (hnodup.subperm hsub).length_le
  simp only [List.length_map, List.length_range'] at hlength
  omega

/-- A label that is found free is not taken. -/
theorem freeLabel_not_mem (label : Text) (n : Nat) (taken : List Text) :
    freeLabel label n taken ∉ taken := by
  unfold freeLabel
  split
  · obtain ⟨j, hlow, hhigh, heq, hbelow, hfree⟩ := firstFree_eq_numbered label taken n taken.length
    obtain ⟨i, hi, hbound, hnot⟩ := exists_free_number label taken n
    rw [heq]
    by_cases hlast : j < n + taken.length
    · exact hfree hlast
    · have hij : i = j := by
        by_contra hne
        exact hnot (hbelow i hi (by omega))
      exact hij ▸ hnot
  · next hfree => exact hfree

/-- A branch for each connection, in the same order and to the same node. -/
theorem map_target_branchesFrom (position : Nat) (taken : List Text) (cs : List Connection) :
    (branchesFrom position taken cs).map (·.target) = cs.map (·.target) := by
  induction cs generalizing position taken with
  | nil => rfl
  | cons c rest ih => rw [branchesFrom, List.map_cons, List.map_cons, ih]

/-- The branches that are made of connections have labels that are not taken, all different. -/
theorem nodup_branchesFrom (position : Nat) (taken : List Text) (cs : List Connection) :
    (∀ e ∈ branchesFrom position taken cs, e.label ∉ taken) ∧
      ((branchesFrom position taken cs).map (·.label)).Nodup := by
  induction cs generalizing position taken with
  | nil => exact ⟨by simp [branchesFrom], List.nodup_nil⟩
  | cons c rest ih =>
    rw [branchesFrom]
    obtain ⟨hnew, hnodup⟩ := ih (position + 1)
      (freeLabel (c.authoredLabel position) position taken :: taken)
    constructor
    · refine List.forall_mem_cons.mpr ⟨freeLabel_not_mem _ _ _, fun e he htaken => ?_⟩
      exact hnew e he (List.mem_cons_of_mem _ htaken)
    · rw [List.map_cons, List.nodup_cons]
      refine ⟨fun hagain => ?_, hnodup⟩
      obtain ⟨e, he, hlabel⟩ := List.mem_map.mp hagain
      exact hnew e he (hlabel ▸ List.mem_cons_self)

/-- Adding the edges whose label is unused is sifting by the label. -/
theorem unusedEdges_eq_firstsBy (taken : List Text) (edges : List Definition.Edge) :
    unusedEdges taken edges = firstsBy Definition.Edge.label taken edges := by
  induction edges generalizing taken with
  | nil => rfl
  | cons e rest ih =>
    rw [unusedEdges, firstsBy, ih, ih]
    by_cases hlabel : e.label ∈ taken
    · rw [if_pos hlabel, if_pos hlabel]
    · rw [if_neg hlabel, if_neg hlabel]

/-- The branches of a node all have different labels. -/
theorem nodup_labels_compileNode (b : Board) (n : Node) :
    ((b.compileNode n).edges.map (·.label)).Nodup := by
  have hdrawn := (nodup_branchesFrom 0 [] (b.leaving n.id)).2
  simp only [compileNode, List.map_append, unusedEdges_eq_firstsBy]
  refine List.Nodup.append hdrawn (nodup_firstsBy _ _ _) fun label hlabel hadded => ?_
  obtain ⟨e, he, rfl⟩ := List.mem_map.mp hadded
  exact (mem_firstsBy he).2 hlabel

end Board

end Showrunner
