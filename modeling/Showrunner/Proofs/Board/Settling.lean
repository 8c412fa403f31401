import Showrunner.Proofs.Board.FirstSeen
import Showrunner.Proofs.Json.Values

/-!
# Compiling boards that come back from documents

A document of a record keeps no number that is not finite. A board without these numbers is compiled to the
definition of the board without these numbers, if no switch has a case with one in its value: ids,
connections and the texts of configurations stay, and these are all that the compiler reads, but for the
values of cases, from which branches have their labels. A board comes back as it was exactly if its numbers
are finite, and then its definition does.
-/

namespace Showrunner

open Json (finiteOnly finiteFields)

/-- A field without numbers that are not finite is found where the field was. -/
theorem Json.get?_finiteFields (fields : Fields) (name : Text) :
    Fields.get? (finiteFields fields) name = (Fields.get? fields name).map finiteOnly := by
  induction fields with
  | nil => rfl
  | cons field rest ih =>
    obtain ⟨other, v⟩ := field
    simp only [Fields.get?, finiteFields, List.lookup_cons] at ih ⊢
    split
    · rfl
    · exact ih

/-- A number is left as it is or becomes null. -/
theorem Json.finiteOnly_float (x : Binary64) :
    finiteOnly (.float x) = .float x ∨ finiteOnly (.float x) = .null := ite_eq_or_eq _ _ _

/-- Changing what elements hold besides their keys changes nothing of which elements are kept. -/
theorem firstsBy_map {α β : Type} [DecidableEq β] {key : α → β} {f : α → α} (h : ∀ a, key (f a) = key a)
    (seen : List β) (as : List α) : firstsBy key seen (as.map f) = (firstsBy key seen as).map f := by
  induction as generalizing seen with
  | nil => rfl
  | cons a rest ih =>
    simp only [List.map_cons, firstsBy, h]
    split
    · exact ih seen
    · rw [ih, List.map_cons]

namespace Board

variable {b : Board} {kind : Text} {cfg : Fields} {v : Json}

/-- A node as it comes back from a document, where numbers are finite. -/
def Node.settled (n : Node) : Node := { n with config := finiteFields n.config }

/-- The cases that a configuration lists. -/
def casesOf (cfg : Fields) : List Json :=
  match Fields.get? cfg (text "cases") with
  | some (.arr cases) => cases
  | _ => []

/-- The value of a case has finite numbers. -/
def CaseFinite (case : Json) : Prop := ∀ v ∈ case.field? (text "value"), v.isFinite = true

instance (case : Json) : Decidable (CaseFinite case) :=
  inferInstanceAs (Decidable (∀ v ∈ case.field? (text "value"), v.isFinite = true))

/-- The values of the cases of a board's switches have finite numbers. -/
def CasesFinite (b : Board) : Prop :=
  ∀ n ∈ b.nodes, n.kind = text "switch" → ∀ case ∈ casesOf n.config, CaseFinite case

instance (b : Board) : Decidable b.CasesFinite :=
  inferInstanceAs (Decidable
    (∀ n ∈ b.nodes, n.kind = text "switch" → ∀ case ∈ casesOf n.config, CaseFinite case))

/-- The values of the cases of a board are such that documents are written of them: no integer has more
digits, and none nests deeper, than documents have that are read. -/
def CasesSized (b : Board) : Prop :=
  ∀ n ∈ b.nodes, ∀ case ∈ casesOf n.config, ∀ v ∈ case.field? (text "value"),
    v.Sized Json.Limits.outside.digits Json.Limits.outside.depth

/-- A target stays without numbers that are not finite. -/
theorem targetOf_finiteOnly (given : Option Json) : targetOf (given.map finiteOnly) = targetOf given := by
  rcases given with _ | _ | _ | _ | x | t | _ | _ <;> try rfl
  rcases Json.finiteOnly_float x with hx | hx
  · rw [Option.map_some, hx]
  · rw [Option.map_some, hx]
    rfl

/-- The kind of a node as it runs stays without numbers that are not finite. -/
theorem resolveKind_finiteFields (kind : Text) (cfg : Fields) :
    resolveKind kind (finiteFields cfg) = resolveKind kind cfg := by
  rw [resolveKind, resolveKind, Json.get?_finiteFields]
  rcases Fields.get? cfg (text "subtype") with _ | _ | _ | _ | x | t | _ | _ <;> try rfl
  rcases Json.finiteOnly_float x with hx | hx <;> rw [Option.map_some, hx]

/-- The branch of a case stays without numbers that are not finite, if its value has none. -/
theorem caseEdge?_finiteOnly {case : Json} (h : CaseFinite case) :
    caseEdge? case.finiteOnly = caseEdge? case := by
  cases case with
  | obj fields =>
    have hvalue : (Fields.get? fields (text "value")).map finiteOnly = Fields.get? fields (text "value") := by
      cases hgiven : Fields.get? fields (text "value") with
      | none => rfl
      | some v => exact congrArg some (Json.finiteOnly_of_isFinite (h v hgiven))
    rw [finiteOnly, caseEdge?, caseEdge?, Json.get?_finiteFields, Json.get?_finiteFields,
      targetOf_finiteOnly, hvalue]
  | float x =>
    rcases Json.finiteOnly_float x with hx | hx
    · rw [hx]
    · rw [hx]
      rfl
  | _ => rfl

/-- The branches of a switch are those of its cases. -/
theorem configEdges_switch (cfg : Fields) :
    configEdges (text "switch") cfg = (casesOf cfg).filterMap caseEdge? := by
  change (match Fields.get? cfg (text "cases") with
    | some (.arr cases) => cases.filterMap caseEdge?
    | _ => []) = _
  rw [casesOf]
  split <;> rfl

/-- The cases of a configuration are settled with it. -/
theorem casesOf_finiteFields (cfg : Fields) :
    casesOf (finiteFields cfg) = (casesOf cfg).map finiteOnly := by
  rw [casesOf, casesOf, Json.get?_finiteFields]
  rcases Fields.get? cfg (text "cases") with _ | _ | _ | _ | x | _ | cases | _ <;> try rfl
  · rcases Json.finiteOnly_float x with hx | hx
    · rw [Option.map_some, hx]
      rfl
    · rw [Option.map_some, hx]
      rfl
  · rw [Option.map_some, finiteOnly, Json.finiteItems_eq]

/-- The branches that a configuration names stay without numbers that are not finite, if no switch has one in
the value of a case. -/
theorem configEdges_finiteFields (h : kind = text "switch" → ∀ case ∈ casesOf cfg, CaseFinite case) :
    configEdges kind (finiteFields cfg) = configEdges kind cfg := by
  by_cases hswitch : kind = text "switch"
  · subst hswitch
    rw [configEdges_switch, configEdges_switch, casesOf_finiteFields, List.filterMap_map]
    exact List.filterMap_congr fun case hcase => caseEdge?_finiteOnly (h rfl case hcase)
  · simp only [configEdges, if_neg hswitch, Json.get?_finiteFields, targetOf_finiteOnly]

/-- Only a switch runs as a switch. -/
theorem switch_of_resolveKind (h : (resolveKind kind cfg).1 = text "switch") : kind = text "switch" := by
  rw [resolveKind] at h
  split at h
  · exact h
  · exact absurd h (show text "trigger" ≠ text "switch" by decide)

/-- The node that a node is compiled to is settled with the node. -/
theorem compileNode_settled (b : Board) (n : Node)
    (h : n.kind = text "switch" → ∀ case ∈ casesOf n.config, CaseFinite case) :
    b.settled.compileNode n.settled = { b.compileNode n with cfg := finiteFields n.config } := by
  have hcases : (resolveKind n.kind n.config).1 = text "switch" →
      ∀ case ∈ casesOf n.config, CaseFinite case := fun hswitch => h (switch_of_resolveKind hswitch)
  have hedges := configEdges_finiteFields hcases
  unfold compileNode
  dsimp only [Node.settled]
  rw [resolveKind_finiteFields, hedges]
  rfl

/-- The nodes that run are settled with the board. -/
theorem runningNodes_settled (b : Board) : b.settled.runningNodes = b.runningNodes.map Node.settled := by
  have hfirst : firstNodes (b.nodes.map Node.settled) = (firstNodes b.nodes).map Node.settled :=
    @firstsBy_map _ _ _ Node.id Node.settled (fun _ => rfl) [] b.nodes
  change (firstNodes (b.nodes.map Node.settled)).filter (·.id ≠ startId) = _
  rw [hfirst, List.filter_map]
  rfl

/-- The definition that a board is compiled to is settled with the board, if no switch has a case with a
number in its value that is not finite. -/
theorem compile_settled (h : b.CasesFinite) (id name : Text) (version : Int) :
    b.settled.compile id name version = (b.compile id name version).settled := by
  have hnodes : b.settled.runningNodes.map (fun n => (n.id, b.settled.compileNode n)) =
      (b.compile id name version).settled.nodes := by
    rw [runningNodes_settled, Definition.settled, compile, List.map_map, List.map_map]
    refine List.map_congr_left fun n hn => ?_
    have hcompiled := compileNode_settled b n (h n (mem_firstsBy (List.mem_filter.mp hn).1).1)
    exact congrArg (Prod.mk n.id) hcompiled
  rw [compile, hnodes]
  rfl

/-- The configurations of a board's nodes have finite numbers. -/
def IsFinite (b : Board) : Prop := ∀ n ∈ b.nodes, Json.fieldsFinite n.config = true

instance (b : Board) : Decidable b.IsFinite :=
  inferInstanceAs (Decidable (∀ n ∈ b.nodes, Json.fieldsFinite n.config = true))

/-- Fields stay as they are exactly if they have finite numbers. -/
theorem finiteFields_eq_self {fields : Fields} :
    finiteFields fields = fields ↔ Json.fieldsFinite fields = true := by
  have hobj : (Json.obj fields).finiteOnly = .obj fields ↔ (Json.obj fields).isFinite = true :=
    Json.finiteOnly_eq_self
  rwa [finiteOnly, Json.obj.injEq] at hobj

/-- A board comes back from a document as it was exactly if its numbers are finite. -/
theorem settled_eq_self : b.settled = b ↔ b.IsFinite := by
  constructor
  · intro h n hn
    have hnodes : b.nodes.map Node.settled = b.nodes := congrArg Board.nodes h
    rw [← hnodes] at hn
    obtain ⟨_, -, rfl⟩ := List.mem_map.mp hn
    exact Json.fieldsFinite_finiteFields _
  · intro h
    have hnodes : b.nodes.map Node.settled = b.nodes.map id := List.map_congr_left fun n hn => by
      rw [Node.settled, finiteFields_eq_self.mpr (h n hn), id]
    rw [List.map_id] at hnodes
    exact congrArg (Board.mk · b.connections) hnodes

/-- The definition that a board with finite numbers is compiled to comes back from a document as it was. -/
theorem settled_compile (h : b.IsFinite) (id name : Text) (version : Int) :
    (b.compile id name version).settled = b.compile id name version := by
  have hfields : ∀ n ∈ b.runningNodes, finiteFields n.config = n.config := fun n hn =>
    finiteFields_eq_self.mpr (h n (mem_firstsBy (List.mem_filter.mp hn).1).1)
  have hnodes : (b.compile id name version).settled.nodes = (b.compile id name version).nodes := by
    rw [Definition.settled, compile, List.map_map]
    refine List.map_congr_left fun n hn => ?_
    change (n.id, { b.compileNode n with cfg := finiteFields n.config }) = _
    rw [hfields n hn]
    rfl
  exact congrArg (Definition.mk id name version _) hnodes

end Board

end Showrunner
