import Showrunner.Board.Check
import Showrunner.Proofs.Board.Drawing
import Showrunner.Proofs.Text.Quoting

/-!
# What a report says

A check reports its warnings in words, and the words tell which warning they are: each kind opens with words
of its own, those about a node go on differently behind its id, and ids and labels stand between quotes. So
a message is in the report exactly if its warning is among those of the board.
-/

namespace Showrunner

namespace Board

variable {b : Board} {w w' : Warning} {id label : Text} {registry : Option Registry}

/-- The words with which the messages of a kind open; a label that is repeated is told of its node, like a
node that nothing leads to. -/
def openings : List Text :=
  [text "Duplicate", text "Connection from", text "Connections", text "Connection to", text "Board",
    text "Node"]

/-- Which of these words a message opens with. -/
def openingOf (message : Text) : Nat := openings.findIdx (·.isPrefixOf message)

/-- Which of these words the message of a warning opens with. -/
def Warning.opening : Warning → Nat
  | .repeatedNode _ => 0
  | .unknownSource _ => 1
  | .intoStart => 2
  | .unknownTarget _ => 3
  | .rootless => 4
  | .unreachable _ | .repeatedLabel _ _ => 5

/-- A message opens with the words of its kind. -/
theorem openingOf_message (w : Warning) : openingOf w.message = w.opening := by
  cases w <;> rfl

/-- A name between quotes is told apart behind the words in front of it. -/
theorem quoted_behind_inj {words closing closing' id' : Text}
    (h : words ++ id.quoted ++ closing = words ++ id'.quoted ++ closing') :
    id = id' ∧ closing = closing' := by
  rw [List.append_assoc, List.append_assoc] at h
  exact Text.quoted_append_inj (List.append_cancel_left h)

/-- A name between quotes is told apart at the end of a message. -/
theorem quoted_at_end_inj {words id' : Text} (h : words ++ id.quoted = words ++ id'.quoted) :
    id = id' := by
  rw [← List.append_nil (words ++ id.quoted), ← List.append_nil (words ++ id'.quoted)] at h
  exact (quoted_behind_inj h).1

/-- Of a node that nothing leads to it is not told that a label is repeated. -/
theorem message_unreachable_ne (id id' label : Text) :
    (Warning.unreachable id).message ≠ (Warning.repeatedLabel id' label).message := by
  intro h
  simp only [Warning.message, List.append_assoc] at h
  have hbehind := (Text.quoted_append_inj (List.append_cancel_left h)).2
  exact absurd (congrArg (List.take 2) hbehind) (show text " i" ≠ text " h" by decide)

/-- Different warnings are told in different words. -/
theorem Warning.message_injective : Function.Injective Warning.message := by
  intro w w' h
  have hopening : w.opening = w'.opening := by rw [← openingOf_message, h, openingOf_message]
  cases w with
  | repeatedNode id =>
    cases w' with
    | repeatedNode id' => rw [(quoted_behind_inj h).1]
    | _ => cases hopening
  | unknownSource id =>
    cases w' with
    | unknownSource id' => rw [quoted_at_end_inj h]
    | _ => cases hopening
  | intoStart =>
    cases w' with
    | intoStart => rfl
    | _ => cases hopening
  | unknownTarget id =>
    cases w' with
    | unknownTarget id' => rw [quoted_at_end_inj h]
    | _ => cases hopening
  | rootless =>
    cases w' with
    | rootless => rfl
    | _ => cases hopening
  | unreachable id =>
    cases w' with
    | unreachable id' => rw [(quoted_behind_inj h).1]
    | repeatedLabel id' label => exact absurd h (message_unreachable_ne id id' label)
    | _ => cases hopening
  | repeatedLabel id label =>
    cases w' with
    | unreachable id' => exact absurd h.symm (message_unreachable_ne id' id label)
    | repeatedLabel id' label' =>
      simp only [message, List.append_assoc] at h
      obtain ⟨rfl, hbehind⟩ := Text.quoted_append_inj (List.append_cancel_left h)
      rw [(Text.quoted_append_inj (List.append_cancel_left hbehind)).1]
    | _ => cases hopening

/-- A message is in a report exactly if its warning is among those of the board. -/
theorem message_mem_check : w.message ∈ (b.check registry).warnings ↔ w ∈ b.warnings :=
  List.mem_map_of_injective Warning.message_injective

/-! ## Which warnings there are -/

/-- The warnings about ids and about where connections lead. -/
def drawingWarnings (b : Board) : List Warning :=
  let ids := b.nodes.map (·.id)
  (repeated [] ids).map .repeatedNode ++ b.connections.flatMap (connectionWarnings ids)

/-- The warnings about labels. -/
def labelWarnings (b : Board) : List Warning :=
  (firstNodes b.nodes).flatMap fun n =>
    (repeatedLabels (b.authoredLabels n.id)).map (.repeatedLabel n.id ·)

/-- The warnings about how the root leads to nodes stand between the others. -/
theorem warnings_eq (b : Board) (id name : Text) (version : Int) :
    b.warnings =
      b.drawingWarnings ++ reachWarnings (b.compile id name version) ++ b.labelWarnings := rfl

/-- The warnings about ids and connections open with words of their own. -/
theorem opening_of_mem_drawingWarnings (h : w ∈ b.drawingWarnings) : w.opening < 4 := by
  rcases List.mem_append.mp h with hnode | hconnection
  · obtain ⟨id, -, rfl⟩ := List.mem_map.mp hnode
    exact Nat.zero_lt_succ _
  · obtain ⟨c, -, hw⟩ := List.mem_flatMap.mp hconnection
    rcases List.mem_append.mp hw with hsource | htarget
    · split at hsource
      · obtain rfl := List.mem_singleton.mp hsource
        exact (by decide : 1 < 4)
      · cases hsource
    · split at htarget
      · obtain rfl := List.mem_singleton.mp htarget
        exact (by decide : 2 < 4)
      · split at htarget
        · obtain rfl := List.mem_singleton.mp htarget
          exact (by decide : 3 < 4)
        · cases htarget

/-- The warnings about how the root leads to nodes are about the root or such a node. -/
theorem of_mem_reachWarnings {d : Definition} (h : w ∈ reachWarnings d) :
    w = .rootless ∨ ∃ id, w = .unreachable id := by
  unfold reachWarnings at h
  split at h
  · exact .inl (List.mem_singleton.mp h)
  · obtain ⟨entry, -, rfl⟩ := List.mem_map.mp h
    exact .inr ⟨entry.1, rfl⟩

/-- The labels that are repeated are those that occur several times. -/
theorem mem_repeatedLabels {labels : List Text} : label ∈ repeatedLabels labels ↔ 1 < labels.count label := by
  rw [repeatedLabels, List.mem_mergeSort, mem_firsts, List.mem_filter, decide_eq_true_eq]
  exact and_iff_right_of_imp fun h => List.count_pos_iff.mp (Nat.zero_lt_of_lt h)

/-- The first nodes with their ids have the ids of all nodes. -/
theorem mem_map_id_firstNodes {nodes : List Node} :
    id ∈ (firstNodes nodes).map Node.id ↔ id ∈ nodes.map Node.id := by
  rw [firstNodes, map_firstsBy, ← firsts, mem_firsts]

/-- A label is warned of at a node exactly if it occurs several times among those authored for it. -/
theorem repeatedLabel_mem_warnings :
    .repeatedLabel id label ∈ b.warnings ↔
      id ∈ b.nodes.map Node.id ∧ 1 < (b.authoredLabels id).count label := by
  rw [b.warnings_eq (text "check") (text "Untitled") 1, List.mem_append, List.mem_append]
  have hdrawing : .repeatedLabel id label ∉ b.drawingWarnings := fun h =>
    absurd (opening_of_mem_drawingWarnings h) (by decide : ¬5 < 4)
  have hreach : .repeatedLabel id label ∉ reachWarnings (b.compile (text "check") (text "Untitled") 1) :=
    fun h => by rcases of_mem_reachWarnings h with h | ⟨_, h⟩ <;> cases h
  rw [or_iff_right (not_or.mpr ⟨hdrawing, hreach⟩), labelWarnings, List.mem_flatMap]
  constructor
  · rintro ⟨n, hn, hwarning⟩
    obtain ⟨label', hrepeated, heq⟩ := List.mem_map.mp hwarning
    cases heq
    exact ⟨List.mem_map_of_mem (mem_firstsBy hn).1, mem_repeatedLabels.mp hrepeated⟩
  · rintro ⟨hid, hrepeated⟩
    obtain ⟨n, hn, rfl⟩ := List.mem_map.mp (mem_map_id_firstNodes.mpr hid)
    exact ⟨n, hn, List.mem_map_of_mem (mem_repeatedLabels.mpr hrepeated)⟩

end Board

end Showrunner
