import Mathlib.Data.List.Forall2
import Showrunner.Board.Check
import Showrunner.Proofs.Board.Reading

/-!
# Two shapes of a board

An editor writes a node with its fields in a `data` object beside a `position`, calls the connections
edges and their labels source handles. A board that was authored flat may be redrawn so, any of its
nodes and any of its connections, and is then read as the same board: lifting a wrapped node gives
the fields that the flat node has, and a field is found under its other name.
-/

namespace Showrunner

namespace Fields

/-- The first field is found under its name, and the others behind it. -/
theorem get?_cons (other name : Text) (v : Json) (rest : Fields) :
    get? ((other, v) :: rest) name = if name = other then some v else get? rest name := by
  rw [get?, List.lookup_cons]
  by_cases hname : name = other
  · simp [hname]
  · rw [beq_eq_false_iff_ne.mpr hname, if_neg hname]
    rfl

/-- A name that is removed has no value, and the others keep theirs. -/
theorem get?_without (fields : Fields) (gone name : Text) :
    (fields.without gone).get? name = if name = gone then none else fields.get? name := by
  induction fields with
  | nil => exact (ite_self none).symm
  | cons field rest ih =>
    obtain ⟨other, v⟩ := field
    have hrest : get? (rest.filter (·.1 != gone)) name = if name = gone then none else get? rest name :=
      ih
    by_cases hgone : other = gone
    · rw [without, List.filter_cons_of_neg (by simpa using hgone), hrest, get?_cons, hgone]
      split <;> rfl
    · rw [without, List.filter_cons_of_pos (by simpa using hgone), get?_cons, hrest, get?_cons]
      by_cases hname : name = other
      · rw [if_pos hname, if_pos hname, if_neg fun heq => hgone (hname.symm.trans heq)]
      · rw [if_neg hname, if_neg hname]

/-- A name that is given a value has it, and the others keep theirs. -/
theorem get?_put (fields : Fields) (given name : Text) (v : Json) :
    (fields.put given v).get? name = if name = given then some v else fields.get? name := by
  induction fields with
  | nil => exact get?_cons ..
  | cons field rest ih =>
    obtain ⟨other, old⟩ := field
    rw [put]
    by_cases hgiven : other = given
    · rw [if_pos hgiven, get?_cons, get?_cons, hgiven]
      split <;> rfl
    · rw [if_neg hgiven, get?_cons, get?_cons, ih]
      by_cases hname : name = other
      · rw [if_pos hname, if_pos hname, if_neg fun heq => hgiven (hname.symm.trans heq)]
      · rw [if_neg hname, if_neg hname]

/-- Behind the fields there are, others are found. -/
theorem get?_append (fields more : Fields) (name : Text) :
    get? (fields ++ more) name = (fields.get? name).or (more.get? name) := List.lookup_append

/-- Of two names the second counts where the first has no value. -/
theorem findSome?_pair (fields : Fields) (first second : String) :
    ([first, second].findSome? fun name => fields.get? (text name)) =
      (fields.get? (text first)).or (fields.get? (text second)) := by
  rw [List.findSome?_cons, List.findSome?_singleton]
  cases fields.get? (text first) <;> rfl

end Fields

namespace Board

open Fields Reader Verdict

variable {origin : Origin} {v v' : Json} {fields fields' : Fields}

/-! ## Nodes -/

/-- Fields that are added count where there is none of their name. -/
theorem get?_addAbsent (fields more : Fields) (name : Text) :
    (addAbsent fields more).get? name = (fields.get? name).or (more.get? name) := by
  induction more generalizing fields with
  | nil => exact Option.or_none.symm
  | cons field rest ih =>
    obtain ⟨other, v⟩ := field
    have hstep : addAbsent fields ((other, v) :: rest) =
        addAbsent (if fields.has other then fields else fields ++ [(other, v)]) rest := rfl
    rw [hstep, ih, get?_cons]
    by_cases hhas : fields.has other = true
    · rw [if_pos hhas]
      by_cases hname : name = other
      · obtain ⟨old, hold⟩ := Option.isSome_iff_exists.mp hhas
        rw [if_pos hname, hname, hold]
        rfl
      · rw [if_neg hname]
    · rw [if_neg hhas, get?_append, get?_cons, Option.or_assoc]
      by_cases hname : name = other
      · rw [if_pos hname, if_pos hname]
        rfl
      · rw [if_neg hname, if_neg hname]
        rfl

/-- What a lifted node has for its configuration, given what was authored. -/
def liftedConfig : Option Json → Json
  | none | some .null => .obj []
  | some v => v

/-- Lifting a node gives the field of its data where it has none itself, no position, and always a
configuration. -/
theorem get?_liftNode (fields : Fields) (name : Text) :
    (liftNode fields).get? name =
      if name = text "config" then some (liftedConfig ((flatFields fields).get? (text "config")))
      else if name = text "position" then none
      else (flatFields fields).get? name := by
  have hlift : liftNode fields =
      match ((flatFields fields).without (text "position")).get? (text "config") with
      | none | some .null =>
          ((flatFields fields).without (text "position")).put (text "config") (.obj [])
      | some _ => (flatFields fields).without (text "position") := rfl
  have hlifted : ((flatFields fields).without (text "position")).get? (text "config") =
      (flatFields fields).get? (text "config") := get?_without ..
  rw [hlift, hlifted]
  split
  · next hnone => rw [get?_put, get?_without, hnone, liftedConfig]
  · next hnull => rw [get?_put, get?_without, hnull, liftedConfig]
  · next v hnull hgiven =>
    have hkept : liftedConfig (some v) = v := by
      cases v with
      | null => exact absurd rfl hnull
      | _ => rfl
    rw [get?_without, hgiven, hkept]
    by_cases hconfig : name = text "config"
    · rw [if_pos hconfig, hconfig, hgiven]
      rfl
    · rw [if_neg hconfig]

/-- A flat node is wrapped: its id stays, its other fields go into an object, and a position may stand
beside. -/
structure Wraps (flat outer : Fields) : Prop where
  plain : flat.get? (text "data") = none
  id : outer.get? (text "id") = flat.get? (text "id")
  data : ∃ data : Fields, outer.get? (text "data") = some (.obj data) ∧ data.get? (text "id") = none ∧
    ∀ name, name ≠ text "id" → data.get? name = flat.get? name
  others : ∀ name, name ≠ text "id" → name ≠ text "data" → name ≠ text "position" →
    outer.get? name = none

/-- The fields of a wrapped node are those of the flat node, but for the position. -/
theorem Wraps.get?_flatFields {flat outer : Fields} (h : Wraps flat outer) {name : Text}
    (hdata : name ≠ text "data") (hposition : name ≠ text "position") :
    (flatFields outer).get? name = (flatFields flat).get? name := by
  obtain ⟨data, hgiven, hid, hsame⟩ := h.data
  have hflat : (flatFields flat).get? name = flat.get? name := by
    rw [flatFields, h.plain, get?_without, if_neg hdata]
  have houter : (flatFields outer).get? name = (outer.get? name).or (data.get? name) := by
    rw [flatFields, hgiven]
    dsimp only
    rw [get?_addAbsent, get?_without, if_neg hdata]
  rw [houter, hflat]
  by_cases hname : name = text "id"
  · rw [hname, hid, h.id, Option.or_none]
  · rw [h.others name hname hdata hposition, Option.none_or, hsame name hname]

/-- Lifting a wrapped node gives what lifting the flat node gives. -/
theorem Wraps.get?_liftNode {flat outer : Fields} (h : Wraps flat outer) (name : Text)
    (hdata : name ≠ text "data") : (liftNode outer).get? name = (liftNode flat).get? name := by
  rw [Board.get?_liftNode, Board.get?_liftNode, h.get?_flatFields (by decide) (by decide)]
  by_cases hposition : name = text "position"
  · rw [hposition]
    rfl
  · rw [h.get?_flatFields hdata hposition]

/-- An object of the id, the other fields and a position wraps a flat node. -/
theorem wraps_split {flat : Fields} {id : Json} (hplain : flat.get? (text "data") = none)
    (hid : flat.get? (text "id") = some id) (position : Json) :
    Wraps flat [(text "id", id), (text "data", .obj (flat.without (text "id"))),
      (text "position", position)] where
  plain := hplain
  id := hid.symm
  data := ⟨flat.without (text "id"), rfl, by rw [get?_without, if_pos rfl],
    fun name hname => by rw [get?_without, if_neg hname]⟩
  others name hname hdata hposition := by
    rw [get?_cons, if_neg hname, get?_cons, if_neg hdata, get?_cons, if_neg hposition]
    rfl

/-- A wrapped node is read as the flat node is. -/
theorem Wraps.read_eq_valid_iff {flat outer : Fields} (h : Wraps flat outer) {n : Node} :
    Node.read origin (.obj outer) = .valid n ↔ Node.read origin (.obj flat) = .valid n := by
  simp only [Node.read_eq_valid_iff, required_eq_valid_iff, optional_eq_valid_iff_findSome?,
    List.findSome?_singleton, findSome?_pair, h.get?_liftNode (text "id") (by decide),
    h.get?_liftNode (text "actionKind") (by decide), h.get?_liftNode (text "action_kind") (by decide),
    h.get?_liftNode (text "config") (by decide)]

/-! ## Connections -/

/-- A field is called otherwise, and the fields of other names stay. -/
structure Renames (old new : String) (fields fields' : Fields) : Prop where
  unused : fields.get? (text new) = none
  gone : fields'.get? (text old) = none
  moved : fields'.get? (text new) = fields.get? (text old)
  others : ∀ name, name ≠ text old → name ≠ text new → fields'.get? name = fields.get? name

/-- In a list of fields one may be called otherwise where it stands. -/
theorem renames_middle {old new : String} (hne : text old ≠ text new) (before : Fields) {after : Fields}
    (v : Json) (hold : (before ++ after).get? (text old) = none)
    (hnew : (before ++ after).get? (text new) = none) :
    Renames old new (before ++ (text old, v) :: after) (before ++ (text new, v) :: after) := by
  rw [get?_append, Option.or_eq_none_iff] at hold hnew
  refine ⟨?_, ?_, ?_, fun name holdname hnewname => ?_⟩
  · rw [get?_append, get?_cons, if_neg hne.symm, hnew.1, hnew.2]
    rfl
  · rw [get?_append, get?_cons, if_neg hne, hold.1, hold.2]
    rfl
  · rw [get?_append, get?_append, get?_cons, get?_cons, if_pos rfl, if_pos rfl, hold.1, hnew.1]
  · rw [get?_append, get?_append, get?_cons, get?_cons, if_neg holdname, if_neg hnewname]

/-- A connection whose label is called a source handle is read as before. -/
theorem Renames.read_eq_valid_iff (h : Renames "label" "sourceHandle" fields fields') {c : Connection} :
    Connection.read origin (.obj fields') = .valid c ↔
      Connection.read origin (.obj fields) = .valid c := by
  simp only [Connection.read_eq_valid_iff, required_eq_valid_iff, optional_eq_valid_iff_findSome?,
    findSome?_pair, h.others (text "source") (by decide) (by decide),
    h.others (text "target") (by decide) (by decide), h.gone, h.moved, h.unused, Option.none_or,
    Option.or_none]

/-! ## Boards -/

/-- A node is kept as it is, or wrapped. -/
inductive RedrawnNode : Json → Json → Prop
  | kept (v : Json) : RedrawnNode v v
  | wrapped {flat outer : Fields} (h : Wraps flat outer) : RedrawnNode (.obj flat) (.obj outer)

/-- A connection is kept as it is, or its label is called a source handle. -/
inductive RedrawnConnection : Json → Json → Prop
  | kept (v : Json) : RedrawnConnection v v
  | renamed {fields fields' : Fields} (h : Renames "label" "sourceHandle" fields fields') :
      RedrawnConnection (.obj fields) (.obj fields')

/-- A list is redrawn item by item. -/
inductive RedrawnItems (Redrawn : Json → Json → Prop) : Json → Json → Prop
  | arr {items items' : List Json} (h : List.Forall₂ Redrawn items items') :
      RedrawnItems Redrawn (.arr items) (.arr items')

/-- A board without edges is redrawn: its nodes and its connections are, and the connections may be called
edges. -/
structure Redraws (fields fields' : Fields) : Prop where
  nodes : Option.Rel (RedrawnItems RedrawnNode) (fields.get? (text "nodes")) (fields'.get? (text "nodes"))
  unused : fields.get? (text "edges") = none
  connections :
    (fields'.get? (text "connections") = none ∧
      Option.Rel (RedrawnItems RedrawnConnection) (fields.get? (text "connections"))
        (fields'.get? (text "edges"))) ∨
    (fields'.get? (text "edges") = none ∧
      Option.Rel (RedrawnItems RedrawnConnection) (fields.get? (text "connections"))
        (fields'.get? (text "connections")))

section

variable {α : Type} {r : Reader α} {Redrawn : Json → Json → Prop}

/-- A redrawn list is read as before if its items are. -/
theorem RedrawnItems.read_eq_valid_iff
    (hitem : ∀ v v' a, Redrawn v v' → (r v' = .valid a ↔ r v = .valid a))
    (h : RedrawnItems Redrawn v v') {values : List α} :
    list r v' = .valid values ↔ list r v = .valid values := by
  obtain ⟨hitems⟩ := h
  simp only [list_eq_valid, Json.arr.injEq, exists_eq_left']
  induction hitems generalizing values with
  | nil => rfl
  | cons hfirst _ ih =>
    cases values with
    | nil => simp
    | cons a rest => simp only [List.map_cons, List.cons.injEq, hitem _ _ a hfirst, ih]

/-- A list that may be left out is read as before if it is redrawn where it is given. -/
theorem optional_list_redrawn (hitem : ∀ v v' a, Redrawn v v' → (r v' = .valid a ↔ r v = .valid a))
    {names : List String} (h : Option.Rel (RedrawnItems Redrawn)
      (names.findSome? fun name => fields.get? (text name))
      (names.findSome? fun name => fields'.get? (text name))) {values : List α} :
    optional names [] (list r) fields' = .valid values ↔
      optional names [] (list r) fields = .valid values := by
  simp only [optional_eq_valid_iff_findSome?]
  generalize (names.findSome? fun name => fields.get? (text name)) = given at h ⊢
  generalize (names.findSome? fun name => fields'.get? (text name)) = given' at h ⊢
  cases h with
  | none => rfl
  | some hitems => simp [hitems.read_eq_valid_iff hitem]

end

/-- A redrawn node is read as before. -/
theorem RedrawnNode.read_eq_valid_iff (h : RedrawnNode v v') {n : Node} :
    Node.read origin v' = .valid n ↔ Node.read origin v = .valid n := by
  cases h with
  | kept => rfl
  | wrapped h => exact h.read_eq_valid_iff

/-- A redrawn connection is read as before. -/
theorem RedrawnConnection.read_eq_valid_iff (h : RedrawnConnection v v') {c : Connection} :
    Connection.read origin v' = .valid c ↔ Connection.read origin v = .valid c := by
  cases h with
  | kept => rfl
  | renamed h => exact h.read_eq_valid_iff

/-- A redrawn board is read as before. -/
theorem Redraws.read_eq_valid_iff (h : Redraws fields fields') {b : Board} :
    Board.read origin (.obj fields') = .valid b ↔ Board.read origin (.obj fields) = .valid b := by
  have hnodes : Option.Rel (RedrawnItems RedrawnNode)
      (["nodes"].findSome? fun name => fields.get? (text name))
      (["nodes"].findSome? fun name => fields'.get? (text name)) := by
    simpa only [List.findSome?_singleton] using h.nodes
  have hconnections : Option.Rel (RedrawnItems RedrawnConnection)
      (["connections", "edges"].findSome? fun name => fields.get? (text name))
      (["connections", "edges"].findSome? fun name => fields'.get? (text name)) := by
    rw [findSome?_pair, findSome?_pair, h.unused, Option.or_none]
    rcases h.connections with ⟨hgone, hmoved⟩ | ⟨hunused, hkept⟩
    · rwa [hgone, Option.none_or]
    · rwa [hunused, Option.or_none]
  rw [Board.read_eq_valid_iff, Board.read_eq_valid_iff,
    optional_list_redrawn (fun _ _ _ h => h.read_eq_valid_iff) hnodes,
    optional_list_redrawn (fun _ _ _ h => h.read_eq_valid_iff) hconnections]

/-- A board that was authored flat and is valid stays so when it is redrawn in the shape of the editor, and
it is compiled and checked the same. -/
theorem redrawn_alike (h : Redraws fields fields') {b : Board}
    (hread : Board.read origin (.obj fields) = .valid b) :
    ∃ b', Board.read origin (.obj fields') = .valid b' ∧
      (∀ id name version, b'.compile id name version = b.compile id name version) ∧
      ∀ registry, b'.check registry = b.check registry :=
  ⟨b, h.read_eq_valid_iff.mpr hread, fun _ _ _ => rfl, fun _ => rfl⟩

/-- A flat trigger with a configuration. -/
def flatTrigger : Fields :=
  [(text "actionKind", .str (text "webhook-trigger")), (text "id", .str (text "t")),
    (text "config", .obj [(text "path", .str (text "/x"))])]

/-- The trigger as an editor writes it. -/
def wrappedTrigger : Fields :=
  [(text "id", .str (text "t")),
    (text "data", .obj [(text "actionKind", .str (text "webhook-trigger")),
      (text "config", .obj [(text "path", .str (text "/x"))])]),
    (text "position", .obj [(text "x", .int 1)])]

/-- A flat node without a configuration that has a position. -/
def flatLog : Fields :=
  [(text "id", .str (text "a")), (text "position", .null), (text "action_kind", .str (text "log"))]

/-- The connection from the start to the trigger. -/
def entry : Json := .obj [(text "source", .str startId), (text "target", .str (text "t"))]

/-- The connection from the trigger to the other node, with a name for its label. -/
def labelledBy (name : String) : Json :=
  .obj [(text "source", .str (text "t")), (text name, .str (text "go")), (text "target", .str (text "a"))]

/-- A board of flat nodes with a labelled connection between them. -/
def authoredFields : Fields :=
  [(text "nodes", .arr [.obj flatTrigger, .obj flatLog]),
    (text "connections", .arr [entry, labelledBy "label"])]

/-- The same with the trigger wrapped, and with the label called a source handle. -/
def editedFields : Fields :=
  [(text "edges", .arr [entry, labelledBy "sourceHandle"]),
    (text "nodes", .arr [.obj wrappedTrigger, .obj flatLog])]

/-- The board that is read from both. -/
def authoredBoard : Board :=
  { nodes := [⟨text "t", text "webhook-trigger", [(text "path", .str (text "/x"))]⟩,
      ⟨text "a", text "log", []⟩]
    connections := [⟨startId, text "t", none⟩, ⟨text "t", text "a", some (text "go")⟩] }

/-- The edited board is redrawn from the authored one, and compiled and checked as that. -/
theorem edited_alike :
    Redraws authoredFields editedFields ∧
    ∃ b, Board.read .request (.obj editedFields) = .valid b ∧
      b.compile (text "x") (text "Untitled") 1 = authoredBoard.compile (text "x") (text "Untitled") 1 ∧
      b.check (some (Registry.empty.withBuiltins [])) =
        authoredBoard.check (some (Registry.empty.withBuiltins [])) := by
  have hredraws : Redraws authoredFields editedFields :=
    { nodes := .some (.arr (.cons (.wrapped (wraps_split rfl rfl _)) (.cons (.kept _) .nil)))
      unused := rfl
      connections := .inl ⟨rfl, .some (.arr (.cons (.kept _) (.cons (.renamed
        (renames_middle (by decide) [_] _ rfl rfl)) .nil)))⟩ }
  have hread : Board.read .request (.obj authoredFields) = .valid authoredBoard := rfl
  obtain ⟨b, hedited, hcompile, hcheck⟩ := redrawn_alike hredraws hread
  exact ⟨hredraws, b, hedited, hcompile .., hcheck _⟩

end Board

end Showrunner
