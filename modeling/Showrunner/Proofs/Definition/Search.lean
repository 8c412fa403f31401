import Mathlib.Algebra.GroupWithZero.Nat
import Mathlib.Algebra.Order.BigOperators.Group.List
import Mathlib.Algebra.Order.Group.Nat
import Mathlib.Logic.Relation
import Showrunner.Definition.Reach
import Showrunner.Proofs.Board.Links
import Showrunner.Proofs.Board.Returns

/-!
# The search for reachable nodes

A search keeps the ids that it has found and a queue of ids to look at. Each round takes the first id of the
queue: if it is that of a node that has not been found yet, it is found, and the targets of the node's edges
join the queue. So the queue may grow, and ids may wait in it several times, but each node lets it grow once
only: the search is over after one round for the root and one for each edge at most. What it has found then
are the nodes to which a path of edges leads from the root.
-/

namespace Showrunner

namespace Definition

variable {d : Definition} {i j : Text} {n : Node}

/-- An edge leads from a node to an id, under which there may be no node. -/
def Leads (d : Definition) (i j : Text) : Prop := ∃ n, d.node? i = some n ∧ n.LeadsTo j

/-- A path of edges leads from the root to a node. -/
def Reaches (d : Definition) (i : Text) : Prop :=
  i ∈ d.nodes.map Prod.fst ∧ Relation.ReflTransGen d.Leads d.root i

/-- How far a search has come: the ids found, and those still to look at. -/
structure Search where
  found : List Text
  pending : List Text

/-- The first round of a search starts at the root. -/
def start (d : Definition) : Search := ⟨[], [d.root]⟩

/-- One round of the search. -/
def round (d : Definition) : Search → Search
  | ⟨found, []⟩ => ⟨found, []⟩
  | ⟨found, i :: pending⟩ =>
      match d.node? i with
      | none => ⟨found, pending⟩
      | some n =>
          if found.contains i then ⟨found, pending⟩
          else ⟨found ++ [i], pending ++ n.edges.map (·.target)⟩

/-- What a round does with the first id of the queue. -/
theorem round_cases (d : Definition) (found : List Text) (i : Text) (pending : List Text) :
    (d.round ⟨found, i :: pending⟩ = ⟨found, pending⟩ ∧ (d.node? i = none ∨ i ∈ found)) ∨
    ∃ n, d.node? i = some n ∧ i ∉ found ∧
      d.round ⟨found, i :: pending⟩ = ⟨found ++ [i], pending ++ n.edges.map (·.target)⟩ := by
  cases hnode : d.node? i with
  | none => exact .inl ⟨by rw [round, hnode], .inl rfl⟩
  | some n =>
    by_cases hfound : i ∈ found
    · have hround : d.round ⟨found, i :: pending⟩ = ⟨found, pending⟩ := by
        rw [round, hnode]
        exact if_pos (List.contains_iff_mem.mpr hfound)
      exact .inl ⟨hround, .inr hfound⟩
    · have hround : d.round ⟨found, i :: pending⟩ =
          ⟨found ++ [i], pending ++ n.edges.map (·.target)⟩ := by
        rw [round, hnode]
        exact if_neg fun h => hfound (List.contains_iff_mem.mp h)
      exact .inr ⟨n, rfl, hfound, hround⟩

/-- The node under an id is the first with that id. -/
theorem node?_eq_find? (d : Definition) (i : Text) :
    d.node? i = (d.nodes.find? (·.1 = i)).map Prod.snd := by
  rw [node?]
  induction d.nodes with
  | nil => rfl
  | cons entry rest ih =>
    obtain ⟨i', n⟩ := entry
    by_cases hi : i' = i
    · simp [hi]
    · have hne : (i == i') = false := beq_eq_false_iff_ne.mpr (Ne.symm hi)
      simpa [List.lookup_cons, hi, hne] using ih

/-- There is a node under an id exactly if it is the id of one. -/
theorem isSome_node? : (d.node? i).isSome = true ↔ i ∈ d.nodes.map Prod.fst := by
  rw [node?_eq_find?, Option.isSome_map, List.find?_isSome, List.mem_map]
  simp only [decide_eq_true_eq]

/-! ## What is found -/

/-- What is found or waits is reached by a path; what is found are nodes, and the root and what they lead to
is found or waits, unless there is no node. -/
structure Search.Sound (d : Definition) (s : Search) : Prop where
  reached : ∀ i, i ∈ s.found ∨ i ∈ s.pending → Relation.ReflTransGen d.Leads d.root i
  known : ∀ i ∈ s.found, i ∈ d.nodes.map Prod.fst
  root : d.root ∈ s.found ∨ d.root ∈ s.pending ∨ d.node? d.root = none
  closed : ∀ i ∈ s.found, ∀ j, d.Leads i j → j ∈ s.found ∨ j ∈ s.pending ∨ d.node? j = none

/-- The search starts soundly. -/
theorem sound_start (d : Definition) : d.start.Sound d where
  reached := by
    rintro i (hi | hi)
    · cases hi
    · rw [List.mem_singleton.mp hi]
  known := fun _ hi => nomatch hi
  root := .inr (.inl (List.mem_singleton_self _))
  closed := fun _ hi => nomatch hi

/-- A round keeps the search sound. -/
theorem Search.Sound.round {s : Search} (h : s.Sound d) : (d.round s).Sound d := by
  obtain ⟨found, pending⟩ := s
  cases pending with
  | nil => exact h
  | cons i pending =>
    have hpath := h.reached i (.inr List.mem_cons_self)
    rcases round_cases d found i pending with ⟨hround, hidle⟩ | ⟨n, hnode, hnew, hround⟩
    · -- the id has no node or is found already
      have hsettled : ∀ j, j ∈ found ∨ j ∈ i :: pending ∨ d.node? j = none →
          j ∈ found ∨ j ∈ pending ∨ d.node? j = none := by
        rintro j (hj | hj | hj)
        · exact .inl hj
        · rcases List.mem_cons.mp hj with rfl | hj
          · rcases hidle with hnone | hfound
            · exact .inr (.inr hnone)
            · exact .inl hfound
          · exact .inr (.inl hj)
        · exact .inr (.inr hj)
      rw [hround]
      exact ⟨fun j hj => h.reached j (hj.imp_right (List.mem_cons_of_mem i)), h.known,
        hsettled _ h.root, fun j hj k hk => hsettled k (h.closed j hj k hk)⟩
    · -- the node is found, and its targets wait behind the others
      have hmoved : ∀ j, j ∈ found ∨ j ∈ i :: pending ∨ d.node? j = none →
          j ∈ found ++ [i] ∨ j ∈ pending ++ n.edges.map (·.target) ∨ d.node? j = none := by
        rintro j (hj | hj | hj)
        · exact .inl (List.mem_append_left _ hj)
        · rcases List.mem_cons.mp hj with rfl | hj
          · exact .inl (List.mem_append_right _ (List.mem_singleton_self _))
          · exact .inr (.inl (List.mem_append_left _ hj))
        · exact .inr (.inr hj)
      rw [hround]
      refine ⟨fun j hj => ?_, fun j hj => ?_, hmoved _ h.root, fun j hj k hk => ?_⟩
      · rcases hj with hj | hj
        · rcases List.mem_append.mp hj with hj | hj
          · exact h.reached j (.inl hj)
          · rw [List.mem_singleton.mp hj]
            exact hpath
        · rcases List.mem_append.mp hj with hj | hj
          · exact h.reached j (.inr (List.mem_cons_of_mem i hj))
          · exact hpath.tail ⟨n, hnode, List.mem_map.mp hj⟩
      · rcases List.mem_append.mp hj with hj | hj
        · exact h.known j hj
        · rw [List.mem_singleton.mp hj]
          exact isSome_node?.mp (by rw [hnode]; rfl)
      · rcases List.mem_append.mp hj with hj | hj
        · exact hmoved k (h.closed j hj k hk)
        · obtain rfl := List.mem_singleton.mp hj
          obtain ⟨n', hn', htarget⟩ := hk
          obtain rfl := Option.some.inj (hnode.symm.trans hn')
          exact .inr (.inl (List.mem_append_right _ (List.mem_map.mpr htarget)))

/-- Any number of rounds keep the search sound. -/
theorem sound_rounds (d : Definition) (rounds : Nat) : (d.round^[rounds] d.start).Sound d := by
  induction rounds with
  | zero => exact d.sound_start
  | succ rounds ih =>
    rw [Function.iterate_succ_apply']
    exact ih.round

/-- A sound search with an empty queue has found the nodes that a path leads to. -/
theorem Search.Sound.mem_found_iff {s : Search} (h : s.Sound d) (hdone : s.pending = []) :
    i ∈ s.found ↔ d.Reaches i := by
  constructor
  · exact fun hi => ⟨h.known i hi, h.reached i (.inl hi)⟩
  · rintro ⟨hknown, hpath⟩
    have hwaits : ∀ j, j ∈ s.found ∨ j ∈ s.pending ∨ d.node? j = none → (d.node? j).isSome →
        j ∈ s.found := by
      rw [hdone]
      rintro j (hj | hj | hj) hsome
      · exact hj
      · cases hj
      · rw [hj] at hsome
        cases hsome
    have hsome := isSome_node?.mpr hknown
    induction hpath with
    | refl => exact hwaits _ h.root hsome
    | @tail k j _ hlast ih =>
      have hk : (d.node? k).isSome = true := by
        obtain ⟨n, hnode, -⟩ := hlast
        rw [hnode]
        rfl
      exact hwaits j (h.closed k (ih (isSome_node?.mp hk) hk) j hlast) hsome

/-! ## The end of the search -/

/-- The nodes that have not been found. -/
def unfound (d : Definition) (found : List Text) : List (Text × Node) := d.nodes.filter (!found.contains ·.1)

/-- How many edges nodes have. -/
def edgeCount (nodes : List (Text × Node)) : Nat := (nodes.map (·.2.edges.length)).sum

/-- How many rounds a search may still take: one for each id that waits, and one for each edge of a node that
has not been found. -/
def Search.work (d : Definition) (s : Search) : Nat := s.pending.length + edgeCount (d.unfound s.found)

/-- A node that is found is taken from those that have not been. -/
theorem unfound_append (d : Definition) (found : List Text) (i : Text) :
    d.unfound (found ++ [i]) = others (d.unfound found) i := by
  rw [unfound, unfound, others, List.filter_filter]
  refine List.filter_congr fun entry _ => ?_
  simp [Bool.and_comm]

/-- What has not been found under an id is what there is, unless the id has been found. -/
theorem find?_unfound (d : Definition) (found : List Text) (i : Text) :
    (d.unfound found).find? (·.1 = i) = if i ∈ found then none else d.nodes.find? (·.1 = i) := by
  split
  · next hfound =>
    refine List.find?_eq_none.mpr fun entry hentry hi => ?_
    obtain ⟨-, hnew⟩ := List.mem_filter.mp hentry
    rw [of_decide_eq_true hi] at hnew
    exact absurd hfound (by simpa using hnew)
  · next hnew =>
    refine Board.find?_filter_of_kept fun entry hentry => ?_
    have hi : entry.1 = i := of_decide_eq_true (List.find?_some hentry :)
    simpa [hi] using hnew

/-- The edges of a node are no longer counted when it is found. -/
theorem edgeCount_others {nodes : List (Text × Node)} {entry : Text × Node} (h : entry ∈ nodes) :
    edgeCount (others nodes entry.1) + entry.2.edges.length ≤ edgeCount nodes := by
  induction nodes with
  | nil => cases h
  | cons first rest ih =>
    have hrest : edgeCount (first :: rest) = first.2.edges.length + edgeCount rest := List.sum_cons
    have hfewer : edgeCount (others rest entry.1) ≤ edgeCount rest :=
      (List.filter_sublist.map _).sum_le_sum fun _ _ => Nat.zero_le _
    rw [hrest, others]
    rcases List.mem_cons.mp h with rfl | hmem
    · rw [List.filter_cons_of_neg (by simp), ← others]
      omega
    · have hle := ih hmem
      by_cases hsame : first.1 = entry.1
      · rw [List.filter_cons_of_neg (by simpa using hsame), ← others]
        omega
      · rw [List.filter_cons_of_pos (by simpa using hsame), ← others]
        have hkept : edgeCount (first :: others rest entry.1) =
            first.2.edges.length + edgeCount (others rest entry.1) := List.sum_cons
        omega

/-- A node that has not been found yet is among the unfound ones. -/
theorem find?_unfound_of_new {found : List Text} (hnode : d.node? i = some n) (hnew : i ∉ found) :
    (d.unfound found).find? (·.1 = i) = some (i, n) := by
  rw [find?_unfound, if_neg hnew]
  rw [node?_eq_find?] at hnode
  obtain ⟨⟨i', n'⟩, hentry, rfl⟩ := Option.map_eq_some_iff.mp hnode
  have hi : i' = i := of_decide_eq_true (List.find?_some hentry :)
  rw [hentry, hi]

/-- Under an id without a node, or one that has been found, there is no unfound node. -/
theorem find?_unfound_of_idle {found : List Text} (h : d.node? i = none ∨ i ∈ found) :
    (d.unfound found).find? (·.1 = i) = none := by
  rw [find?_unfound]
  split
  · rfl
  · next hnew =>
    have hnone := h.resolve_right hnew
    rwa [node?_eq_find?, Option.map_eq_none_iff] at hnone

/-- A round leaves less to do. -/
theorem work_round {s : Search} (h : s.pending ≠ []) : (d.round s).work d < s.work d := by
  obtain ⟨found, pending⟩ := s
  cases pending with
  | nil => exact absurd rfl h
  | cons i pending =>
    rcases round_cases d found i pending with ⟨hround, -⟩ | ⟨n, hnode, hnew, hround⟩
    · rw [hround]
      simp only [Search.work, List.length_cons]
      omega
    · have hmem := List.mem_of_find?_eq_some (find?_unfound_of_new hnode hnew)
      have hfewer := edgeCount_others hmem
      rw [hround]
      simp only [Search.work, unfound_append, List.length_cons, List.length_append, List.length_map] at hfewer ⊢
      omega

/-- A round finds what the search finds first, and leaves the rest of it. -/
theorem found_round (d : Definition) (s : Search) :
    (d.round s).found ++ search (d.unfound (d.round s).found) (d.round s).pending =
      s.found ++ search (d.unfound s.found) s.pending := by
  obtain ⟨found, pending⟩ := s
  cases pending with
  | nil => rfl
  | cons i pending =>
    rcases round_cases d found i pending with ⟨hround, hidle⟩ | ⟨n, hnode, hnew, hround⟩
    · have hnone := find?_unfound_of_idle hidle
      rw [hround]
      dsimp only
      conv_rhs => rw [search]
      split
      · rfl
      · next hsome =>
        rw [hnone] at hsome
        cases hsome
    · have hsome := find?_unfound_of_new hnode hnew
      rw [hround]
      dsimp only
      conv_rhs => rw [search]
      split
      · next hnone =>
        rw [hsome] at hnone
        cases hnone
      · next hfound =>
        rw [hsome] at hfound
        cases hfound
        rw [unfound_append, List.append_assoc, List.singleton_append]

/-- A search with an empty queue is over. -/
theorem rounds_of_done {s : Search} (h : s.pending = []) (rounds : Nat) :
    d.round^[rounds] s = ⟨s.found ++ search (d.unfound s.found) s.pending, []⟩ := by
  obtain ⟨found, pending⟩ := s
  obtain rfl : pending = [] := h
  rw [Function.iterate_fixed rfl, search, List.append_nil]

/-- The search is over after as many rounds as it may take. -/
theorem rounds_eq {s : Search} {rounds : Nat} (h : s.work d ≤ rounds) :
    d.round^[rounds] s = ⟨s.found ++ search (d.unfound s.found) s.pending, []⟩ := by
  induction rounds generalizing s with
  | zero =>
    have hlength : s.pending.length = 0 := Nat.eq_zero_of_add_eq_zero_right (Nat.le_zero.mp h)
    exact rounds_of_done (List.eq_nil_of_length_eq_zero hlength) 0
  | succ rounds ih =>
    by_cases hdone : s.pending = []
    · exact rounds_of_done hdone _
    · have hless := work_round (d := d) hdone
      rw [Function.iterate_succ_apply, ih (by omega), found_round]

/-- After one round for the root and one for each edge the search is over, and has found the reachable ids. -/
theorem rounds_start (d : Definition) {rounds : Nat} (h : edgeCount d.nodes + 1 ≤ rounds) :
    d.round^[rounds] d.start = ⟨d.reachable, []⟩ := by
  have hall : d.unfound [] = d.nodes := List.filter_eq_self.mpr fun _ _ => rfl
  have hwork : d.start.work d ≤ rounds := by
    rw [Search.work, start, hall]
    exact Nat.add_comm 1 _ ▸ h
  rw [rounds_eq hwork, start, hall]
  rfl

/-- The reachable ids are those of the nodes to which a path leads from the root. -/
theorem mem_reachable : i ∈ d.reachable ↔ d.Reaches i := by
  have hsound := d.sound_rounds (edgeCount d.nodes + 1)
  rw [d.rounds_start le_rfl] at hsound
  exact hsound.mem_found_iff rfl

instance (d : Definition) (i : Text) : Decidable (d.Reaches i) :=
  decidable_of_iff (d.reachable.contains i = true) (List.contains_iff_mem.trans mem_reachable)

end Definition

end Showrunner
