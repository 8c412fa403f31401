import Showrunner.NodeKind.Registry
import Showrunner.Proofs.Validation.Verdicts

/-!
# Configurations that pass the check

A registry with the kinds that are always there finds each of them with its shape, however they are
described. Filters and switches have readers that say what is wrong with a configuration, so one that passes
the check is read as a typed configuration. A field of it that is a text or null holds what the first of the
names that is given has.
-/

namespace Showrunner

namespace Registry

open NodeKind

variable {kind : Text}

/-- A kind is found as it was registered last. -/
theorem get?_register (r : Registry) (spec : Spec) (kind : Text) :
    (r.register spec).get? kind = if spec.kind = kind then some spec else r.get? kind := by
  rw [get?, register, List.find?_append]
  split
  · next hsame =>
    have hnone : (r.specs.filter (·.kind ≠ spec.kind)).find? (·.kind = kind) = none :=
      List.find?_eq_none.mpr fun old hold => by
        simpa [hsame] using (List.mem_filter.mp hold).2
    rw [hnone, Option.none_or, List.find?_cons_of_pos (by simpa using hsame)]
  · next hother =>
    have hkept : (r.specs.filter (·.kind ≠ spec.kind)).find? (·.kind = kind) = r.get? kind := by
      rw [List.find?_filter, get?]
      congr 1
      funext old
      by_cases hold : old.kind = kind
      · simp [hold, Ne.symm hother]
      · simp [hold]
    rw [hkept, List.find?_cons_of_neg (by simpa using hother), List.find?_nil, Option.or_none]

/-- Registering other kinds changes nothing of what is found. -/
theorem get?_foldl_of_not_mem {specs : List Spec} (h : kind ∉ specs.map (·.kind))
    (describe : Spec → Text) (r : Registry) :
    (specs.foldl (fun r spec => r.register { spec with description := describe spec }) r).get? kind =
      r.get? kind := by
  induction specs generalizing r with
  | nil => rfl
  | cons spec rest ih =>
    rw [List.map_cons, List.mem_cons, not_or] at h
    rw [List.foldl_cons, ih h.2, get?_register, if_neg (Ne.symm h.1)]

/-- Each of some kinds with different names is found once all are registered. -/
theorem get?_foldl_of_mem {specs : List Spec} (hnodup : (specs.map (·.kind)).Nodup) {spec : Spec}
    (h : spec ∈ specs) (describe : Spec → Text) (r : Registry) :
    (specs.foldl (fun r spec => r.register { spec with description := describe spec }) r).get? spec.kind =
      some { spec with description := describe spec } := by
  induction specs generalizing r with
  | nil => exact absurd h List.not_mem_nil
  | cons first rest ih =>
    obtain ⟨hfirst, hrest⟩ := List.nodup_cons.mp hnodup
    rw [List.foldl_cons]
    rcases List.mem_cons.mp h with rfl | hmem
    · rw [get?_foldl_of_not_mem hfirst, get?_register, if_pos rfl]
    · exact ih hrest hmem _

/-- The kinds that are always there are checked by their shapes, however they are described. -/
theorem check_withBuiltins {spec : Spec} (h : spec ∈ builtinSpecs) {shape : Shape}
    (hshape : spec.shape = some shape) (r : Registry) (descriptions : List (Text × Text)) (cfg : Json) :
    (r.withBuiltins descriptions).check spec.kind cfg = (shape.issues cfg).map issueText := by
  have hfound : (r.withBuiltins descriptions).get? spec.kind = _ :=
    get?_foldl_of_mem (by decide) h _ r
  rw [check, hfound, hshape]

end Registry

namespace NodeKind

open Reader Registry

/-- A field that is a text or null and may be left out is refused for what is wrong with its value. -/
theorem explained_optionalText (names : List String) (fields : Fields) :
    (optionalText names fields).Explained := explains_string.nullable.optional names none fields

/-- The reader of filters says what is wrong with a configuration. -/
theorem FilterConfig.explains_read : Explains FilterConfig.read :=
  explains_record (fun fields => (((explained_optionalText _ fields).functor_map _).seq
    (explained_optionalText _ fields)).seq (explained_optionalText _ fields)) _ _

/-- The reader of cases says what is wrong with a case. -/
theorem SwitchCase.explains_read : Explains SwitchCase.read :=
  explains_record (fun fields => ((explains_any.optional _ _ fields).functor_map _).seq
    (explained_optionalText _ fields)) _ _

/-- The reader of switches says what is wrong with a configuration. -/
theorem SwitchConfig.explains_read : Explains SwitchConfig.read :=
  explains_record (fun fields => ((explained_optionalText _ fields).functor_map _).seq
    (SwitchCase.explains_read.list.optional _ _ fields)) _ _

/-- A configuration that passes the check of its kind is read, if the reader says why it refuses one. -/
theorem exists_valid_of_check {α : Type} {read : Reader α} (hread : Explains read) {spec : Spec}
    (hspec : spec ∈ builtinSpecs) {shape : Shape} (hshape : spec.shape = some shape) {r : Registry}
    {descriptions : List (Text × Text)} {cfg : Json} (hissues : shape.issues cfg = (read cfg).issues)
    (h : (r.withBuiltins descriptions).check spec.kind cfg = []) : ∃ typed, read cfg = .valid typed := by
  rw [check_withBuiltins hspec hshape, hissues] at h
  exact (hread cfg).exists_valid (List.map_eq_nil_iff.mp h)

variable {r : Registry} {descriptions : List (Text × Text)} {cfg : Json}

/-- The configuration of a filter that passes the check is read. -/
theorem FilterConfig.exists_valid (h : (r.withBuiltins descriptions).check (text "filter") cfg = []) :
    ∃ typed, FilterConfig.read cfg = .valid typed :=
  exists_valid_of_check explains_read (.tail _ (.tail _ (.head _))) rfl rfl h

/-- The configuration of a switch that passes the check is read. -/
theorem SwitchConfig.exists_valid (h : (r.withBuiltins descriptions).check (text "switch") cfg = []) :
    ∃ typed, SwitchConfig.read cfg = .valid typed :=
  exists_valid_of_check explains_read (.tail _ (.tail _ (.tail _ (.head _)))) rfl rfl h

end NodeKind

end Showrunner
