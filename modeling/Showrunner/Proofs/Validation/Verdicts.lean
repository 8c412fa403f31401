import Showrunner.Validation.Reader

/-!
# What a valid verdict says of its parts

A verdict that combines others is valid exactly if each of them is, and then its value is that of the
parts. So a list or an object is read as values exactly if each item or field is read as its value, and a
record that is read has the values of its fields. A verdict of such readers that is not valid has issues.
-/

namespace Showrunner

namespace Verdict

variable {α β : Type}

/-- A function is applied to the value of a valid verdict. -/
theorem map_eq_valid {v : Verdict α} {f : α → β} {b : β} :
    v.map f = .valid b ↔ ∃ a, v = .valid a ∧ f a = b := by
  cases v <;> simp [map]

/-- Two verdicts combine to a pair of their values. -/
theorem both_eq_valid {v : Verdict α} {w : Verdict β} {a : α} {b : β} :
    both v w = .valid (a, b) ↔ v = .valid a ∧ w = .valid b := by
  cases v <;> cases w <;> simp [both]

/-- The function of a verdict is applied to the value of another. -/
theorem seq_eq_valid {f : Verdict (α → β)} {v : Verdict α} {b : β} :
    f <*> v = .valid b ↔ ∃ g a, f = .valid g ∧ v = .valid a ∧ g a = b := by
  change (both f v).map _ = .valid b ↔ _
  rw [map_eq_valid]
  simp [both_eq_valid, and_assoc]

/-- A function goes to the value of a valid verdict. -/
theorem functor_map_eq_valid {f : α → β} {v : Verdict α} {b : β} :
    f <$> v = .valid b ↔ ∃ a, v = .valid a ∧ f a = b := by
  change Verdict.valid f <*> v = .valid b ↔ _
  rw [seq_eq_valid]
  simp

/-- A value is valid from further out as well. -/
@[simp] theorem under_eq_valid {v : Verdict α} {step : Step} {a : α} :
    v.under step = .valid a ↔ v = .valid a := by
  cases v <;> simp [under]

/-- Verdicts combine to a list exactly if each is valid. -/
theorem all_eq_valid {verdicts : List (Verdict α)} {items : List α} :
    all verdicts = .valid items ↔ verdicts = items.map .valid := by
  induction verdicts generalizing items with
  | nil => cases items <;> simp [all]
  | cons v rest ih =>
    rw [all, map_eq_valid]
    cases items with
    | nil => simp
    | cons a tail => simp [both_eq_valid, ih]

/-! ## Verdicts that say why -/

/-- A verdict that is not valid has issues. -/
def Explained : Verdict α → Prop
  | .valid _ => True
  | .invalid issues => issues ≠ []

variable {v : Verdict α} {w : Verdict β}

/-- An explained verdict without issues is valid. -/
theorem Explained.exists_valid (h : v.Explained) (hnone : v.issues = []) : ∃ a, v = .valid a := by
  cases v with
  | valid a => exact ⟨a, rfl⟩
  | invalid issues => exact absurd hnone h

/-- A function leaves a verdict explained. -/
theorem Explained.map (f : α → β) (h : v.Explained) : (v.map f).Explained := by
  cases v <;> exact h

/-- A verdict stays explained from further out. -/
theorem Explained.under (step : Step) (h : v.Explained) : (v.under step).Explained := by
  cases v with
  | valid a => trivial
  | invalid issues => exact fun hnone => h (List.map_eq_nil_iff.mp hnone)

/-- Two explained verdicts combine to one. -/
theorem Explained.both (hv : v.Explained) (hw : w.Explained) : (Verdict.both v w).Explained := by
  cases v with
  | valid a => cases w <;> exact hw
  | invalid issues =>
    cases w with
    | valid b => exact hv
    | invalid more => exact List.append_ne_nil_of_left_ne_nil hv more

/-- The explained function of a verdict is applied to an explained verdict. -/
theorem Explained.seq {f : Verdict (α → β)} (hf : f.Explained) (hv : v.Explained) :
    (f <*> v).Explained := (hf.both hv).map _

/-- A function goes to an explained verdict. -/
theorem Explained.functor_map (f : α → β) (h : v.Explained) : (f <$> v).Explained :=
  Explained.seq (show (Verdict.valid f).Explained from trivial) h

/-- Explained verdicts combine to one. -/
theorem Explained.all {verdicts : List (Verdict α)} (h : ∀ v ∈ verdicts, v.Explained) :
    (Verdict.all verdicts).Explained := by
  induction verdicts with
  | nil => trivial
  | cons v rest ih =>
    obtain ⟨hv, hrest⟩ := List.forall_mem_cons.mp h
    exact (hv.both (ih hrest)).map _

end Verdict

namespace Reader

open Verdict

variable {α : Type} {r : Reader α} {v : Json} {fields : Fields} {a : α}

/-- A text is read as itself, and nothing else is read as a text. -/
theorem string_eq_valid {t : Text} : string v = .valid t ↔ v = .str t := by
  cases v <;> simp [string, refuse]

/-- Items are valid each in its place exactly if they are valid. -/
theorem map_zipIdx_eq_valid {items : List Json} {values : List α} (k : Nat) :
    (items.zipIdx k).map (fun item => (r item.1).under (.item item.2)) = values.map .valid ↔
      items.map r = values.map .valid := by
  induction items generalizing k values with
  | nil => simp
  | cons v rest ih =>
    cases values with
    | nil => simp
    | cons a more => simp [List.zipIdx_cons, ih]

/-- A list is read as the values of its items. -/
theorem list_eq_valid {values : List α} :
    list r v = .valid values ↔ ∃ items, v = .arr items ∧ items.map r = values.map .valid := by
  cases v with
  | arr items =>
    change all (items.zipIdx.map fun item => (r item.1).under (.item item.2)) = _ ↔ _
    rw [all_eq_valid, map_zipIdx_eq_valid]
    simp
  | _ => simp [list, refuse]

/-- An object is read as the values of its fields. -/
theorem mapping_eq_valid {entries : List (Text × α)} :
    mapping r v = .valid entries ↔ ∃ fields : Fields, v = .obj fields ∧
      fields.map (fun field => (field.1, r field.2)) =
        entries.map fun entry => (entry.1, .valid entry.2) := by
  cases v with
  | obj fields =>
    change all (fields.map fun field => ((r field.2).under (.field field.1)).map (field.1, ·)) = _ ↔ _
    rw [all_eq_valid]
    simp only [Json.obj.injEq, exists_eq_left']
    induction fields generalizing entries with
    | nil => simp
    | cons field rest ih =>
      cases entries with
      | nil => simp
      | cons entry more =>
        obtain ⟨name, b⟩ := entry
        have hfirst : (∃ c, r field.2 = .valid c ∧ field.1 = name ∧ c = b) ↔
            field.1 = name ∧ r field.2 = .valid b :=
          ⟨fun ⟨_, hread, hname, hsame⟩ => ⟨hname, hsame ▸ hread⟩,
            fun ⟨hname, hread⟩ => ⟨b, hread, hname, rfl⟩⟩
        simp [ih, map_eq_valid, hfirst]
  | _ => simp [mapping, refuse]

/-- A field that may be left out is read from the first of its names that is given, and is absent if none
is. -/
theorem optional_eq_valid_iff {names : List String} {absent : α} :
    optional names absent r fields = .valid a ↔
      (given? names fields = none ∧ a = absent) ∨
        ∃ found, given? names fields = some found ∧ r found.2 = .valid a := by
  rw [optional]
  cases given? names fields with
  | none => simp [eq_comm]
  | some found => simp

/-- A field that may be left out is read from a value under one of its names. -/
theorem optional_eq_valid {names : List String} {absent : α}
    (h : optional names absent r fields = .valid a) :
    a = absent ∨ ∃ name ∈ names, ∃ v, Fields.get? fields (text name) = some v ∧ r v = .valid a := by
  rcases optional_eq_valid_iff.mp h with ⟨-, rfl⟩ | ⟨found, hgiven, hread⟩
  · exact .inl rfl
  · obtain ⟨name, hname, hgiven⟩ := List.exists_of_findSome?_eq_some hgiven
    obtain ⟨v, hfound, rfl⟩ := Option.map_eq_some_iff.mp hgiven
    exact .inr ⟨name, hname, v, hfound, hread⟩

/-- What is given under one of some names is the value of the first that has one. -/
theorem map_snd_given? (names : List String) (fields : Fields) :
    (given? names fields).map Prod.snd = names.findSome? fun name => Fields.get? fields (text name) := by
  induction names with
  | nil => rfl
  | cons name rest ih =>
    rw [given?, List.findSome?_cons, List.findSome?_cons]
    cases Fields.get? fields (text name) with
    | none => exact ih
    | some v => rfl

/-- A field that may be left out is read from the value of the first of its names that has one. -/
theorem optional_eq_valid_iff_findSome? {names : List String} {absent : α} :
    optional names absent r fields = .valid a ↔
      let given := names.findSome? fun name => Fields.get? fields (text name)
      (given = none ∧ a = absent) ∨ ∃ v, given = some v ∧ r v = .valid a := by
  rw [optional_eq_valid_iff, ← map_snd_given?]
  cases given? names fields with
  | none => simp
  | some found => simp

/-- A field with one name that may be left out is read from what is given, and is absent if nothing is. -/
theorem optional_single_eq_valid_iff {name : String} {absent : α} :
    optional [name] absent r fields = .valid a ↔
      (Fields.get? fields (text name) = none ∧ a = absent) ∨
        ∃ v, Fields.get? fields (text name) = some v ∧ r v = .valid a := by
  rw [optional_eq_valid_iff_findSome?, List.findSome?_singleton]

/-- A field that has to be given is read from its value. -/
theorem required_eq_valid_iff {name : String} :
    required name r fields = .valid a ↔
      ∃ v, Fields.get? fields (text name) = some v ∧ r v = .valid a := by
  rw [required, given?, List.findSome?_singleton]
  cases Fields.get? fields (text name) with
  | none => simp [missing]
  | some v => simp

/-- A record is read from the fields of an object. -/
theorem record_eq_valid {origin : Origin} {name : String} {read : Fields → Verdict α} :
    record origin name read v = .valid a ↔ ∃ fields, v = .obj fields ∧ read fields = .valid a := by
  cases v with
  | obj fields => simp [record]
  | _ => cases origin <;> simp [record, noRecord, refuse]

/-! ## Readers that say why -/

/-- A reader says what is wrong with a value that it does not read. -/
def Explains (r : Reader α) : Prop := ∀ v, (r v).Explained

/-- A refusal is an issue. -/
theorem explained_refuse (kind message : String) (given : Json) (details : Fields) :
    (refuse kind message given details : Verdict α).Explained := List.cons_ne_nil _ _

/-- Any value is read. -/
theorem explains_any : Explains any := fun _ => trivial

/-- A reader of texts says what is wrong with other values. -/
theorem explains_string : Explains string := fun v => by
  cases v with
  | str t => trivial
  | _ => exact explained_refuse _ _ _ _

/-- A reader that says why still does so where null is read as well. -/
theorem Explains.nullable (h : Explains r) : Explains (nullable r) := fun v => by
  cases v with
  | null => trivial
  | _ => exact (h _).map _

/-- A reader of lists says why if the reader of items does. -/
theorem Explains.list (h : Explains r) : Explains (list r) := fun v => by
  cases v with
  | arr items =>
    refine Explained.all fun w hw => ?_
    obtain ⟨item, -, rfl⟩ := List.mem_map.mp hw
    exact (h item.1).under _
  | _ => exact explained_refuse _ _ _ _

/-- A field that may be left out is refused for what is wrong with its value. -/
theorem Explains.optional (h : Explains r) (names : List String) (absent : α) (fields : Fields) :
    (optional names absent r fields).Explained := by
  unfold Reader.optional
  split
  · exact (h _).under _
  · trivial

/-- A reader of records says why if it does so for the fields. -/
theorem explains_record {read : Fields → Verdict α} (h : ∀ fields, (read fields).Explained) (origin : Origin)
    (name : String) : Explains (record origin name read) := fun v => by
  cases v with
  | obj fields => exact h fields
  | _ => cases origin <;> exact explained_refuse _ _ _ _

end Reader

end Showrunner
