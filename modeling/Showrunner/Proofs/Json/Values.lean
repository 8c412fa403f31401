import Showrunner.Proofs.Json.Readings

/-!
# Parts of values

What holds of a value because it holds of the parts of its containers is proved by cases on its form. A
value without numbers that are not finite keeps its texts and its form, is finite, and is the value itself
exactly if that was finite.
-/

namespace Showrunner

namespace Json

mutual

/-- How deep containers nest in a value. -/
def depth : Json → Nat
  | .arr items => itemsDepth items + 1
  | .obj fields => fieldsDepth fields + 1
  | _ => 0

/-- How deep containers nest in the items of a list. -/
def itemsDepth : List Json → Nat
  | [] => 0
  | v :: rest => max (depth v) (itemsDepth rest)

/-- How deep containers nest in the values of fields. -/
def fieldsDepth : List (Text × Json) → Nat
  | [] => 0
  | (_, v) :: rest => max (depth v) (fieldsDepth rest)

end

variable {limit : Option Nat} {most most' : Nat} {N N' : Text → Prop} {v w : Json} {fields : Fields}

/-- What holds of every value without parts, and of a container if it holds of its parts, holds of every
value. -/
@[elab_as_elim, induction_eliminator]
theorem ind {P : Json → Prop} (null : P .null) (bool : ∀ b, P (.bool b)) (int : ∀ n, P (.int n))
    (float : ∀ x, P (.float x)) (str : ∀ t, P (.str t))
    (arr : ∀ items : List Json, (∀ v ∈ items, P v) → P (.arr items))
    (obj : ∀ fields : Fields, (∀ field ∈ fields, P field.2) → P (.obj fields)) : ∀ v, P v
  | .null => null
  | .bool b => bool b
  | .int n => int n
  | .float x => float x
  | .str t => str t
  | .arr items => arr items fun v _ => ind null bool int float str arr obj v
  | .obj fields => obj fields fun field _ => ind null bool int float str arr obj field.2
termination_by v => sizeOf v
decreasing_by
  · have hsize := List.sizeOf_lt_of_mem ‹v ∈ items›
    simp only [Json.arr.sizeOf_spec]
    omega
  · have hsize := List.sizeOf_lt_of_mem ‹field ∈ fields›
    have hfield : sizeOf field = 1 + sizeOf field.1 + sizeOf field.2 := rfl
    simp only [Json.obj.sizeOf_spec]
    omega

/-! ## Parts of containers -/

/-- The items of a list without numbers that are not finite. -/
theorem finiteItems_eq (items : List Json) : finiteItems items = items.map finiteOnly := by
  induction items with
  | nil => rfl
  | cons v rest ih => rw [finiteItems, ih, List.map_cons]

/-- The fields of an object without numbers that are not finite. -/
theorem finiteFields_eq (fields : Fields) :
    finiteFields fields = fields.map fun field => (field.1, field.2.finiteOnly) := by
  induction fields with
  | nil => rfl
  | cons field rest ih => rw [finiteFields, ih, List.map_cons]

/-- The items of a list are finite exactly if each is. -/
theorem itemsFinite_iff {items : List Json} :
    itemsFinite items = true ↔ ∀ v ∈ items, v.isFinite = true := by
  induction items with
  | nil => simp [itemsFinite]
  | cons v rest ih => simp [itemsFinite, ih]

/-- The fields of an object are finite exactly if the value of each is. -/
theorem fieldsFinite_iff : fieldsFinite fields = true ↔ ∀ field ∈ fields, field.2.isFinite = true := by
  induction fields with
  | nil => simp [fieldsFinite]
  | cons field rest ih => simp [fieldsFinite, ih]

/-- The texts of a list are those of its items. -/
theorem itemTexts_eq (items : List Json) : itemTexts items = items.flatMap texts := by
  induction items with
  | nil => rfl
  | cons v rest ih => rw [itemTexts, ih, List.flatMap_cons]

/-- The texts of fields are their names and the texts of their values. -/
theorem fieldTexts_eq (fields : Fields) :
    fieldTexts fields = fields.flatMap fun field => field.1 :: field.2.texts := by
  induction fields with
  | nil => rfl
  | cons field rest ih => rw [fieldTexts, ih, List.flatMap_cons]

/-- Items nest as deep as the deepest. -/
theorem itemsDepth_le {items : List Json} : itemsDepth items ≤ most ↔ ∀ v ∈ items, v.depth ≤ most := by
  induction items with
  | nil => simp [itemsDepth]
  | cons v rest ih => simp [itemsDepth, ih]

/-- Fields nest as deep as the value that is deepest. -/
theorem fieldsDepth_le : fieldsDepth fields ≤ most ↔ ∀ field ∈ fields, field.2.depth ≤ most := by
  induction fields with
  | nil => simp [fieldsDepth]
  | cons field rest ih => simp [fieldsDepth, ih]

/-- No half of a pair stands alone in a value exactly if its texts are texts of characters. -/
theorem strayHalf?_eq_none : v.strayHalf? = none ↔ ∀ t ∈ v.texts, t.isScalar = true := by
  simp [strayHalf?]

/-! ## Values without numbers that are not finite -/

/-- Leaving out numbers that are not finite leaves no such numbers. -/
theorem isFinite_finiteOnly (v : Json) : v.finiteOnly.isFinite = true := by
  induction v with
  | null | bool | int | str => rfl
  | float x =>
    rw [finiteOnly]
    split
    · next hfinite => exact hfinite
    · rfl
  | arr items ih =>
    rw [finiteOnly, finiteItems_eq]
    exact itemsFinite_iff.mpr (List.forall_mem_map.mpr ih)
  | obj fields ih =>
    rw [finiteOnly, finiteFields_eq]
    exact fieldsFinite_iff.mpr (List.forall_mem_map.mpr ih)

/-- Leaving out numbers that are not finite from fields leaves no such numbers. -/
@[simp] theorem fieldsFinite_finiteFields (fields : Fields) :
    fieldsFinite (finiteFields fields) = true := isFinite_finiteOnly (.obj fields)

/-- An optional text is finite. -/
@[simp] theorem isFinite_ofText? (t : Option Text) : (ofText? t).isFinite = true := by
  cases t <;> rfl

/-- Texts are finite. -/
@[simp] theorem itemsFinite_texts (texts : List Text) : itemsFinite (texts.map .str) = true :=
  itemsFinite_iff.mpr (List.forall_mem_map.mpr fun _ _ => rfl)

/-- A finite value is left as it is. -/
theorem finiteOnly_of_isFinite (h : v.isFinite = true) : v.finiteOnly = v := by
  induction v with
  | null | bool | int | str => rfl
  | float x => exact if_pos h
  | arr items ih =>
    have hitems := itemsFinite_iff.mp h
    rw [finiteOnly, finiteItems_eq, List.map_congr_left fun v hv => ih v hv (hitems v hv)]
    simp
  | obj fields ih =>
    have hfields := fieldsFinite_iff.mp h
    rw [finiteOnly, finiteFields_eq, List.map_congr_left fun field hfield => by
      rw [ih field hfield (hfields field hfield)]]
    simp

/-- Fields without numbers that are not finite are left as they are. -/
@[simp] theorem finiteFields_finiteFields (fields : Fields) :
    finiteFields (finiteFields fields) = finiteFields fields :=
  Json.obj.inj (finiteOnly_of_isFinite (isFinite_finiteOnly (.obj fields)))

/-- A value is the same without numbers that are not finite exactly if it has none. -/
theorem finiteOnly_eq_self : v.finiteOnly = v ↔ v.isFinite = true :=
  ⟨fun h => h ▸ isFinite_finiteOnly v, finiteOnly_of_isFinite⟩

/-! ## Formed values -/

/-- Containers nest no deeper in a formed value than they may. -/
theorem Formed.depth_le (h : Formed N limit most v) : v.depth ≤ most := by
  induction h with
  | null | bool | int | float | str => exact Nat.zero_le _
  | arr _ ih => exact Nat.succ_le_succ (itemsDepth_le.mpr ih)
  | obj _ _ _ ih => exact Nat.succ_le_succ (fieldsDepth_le.mpr ih)

/-- A formed value is formed as far as its containers nest. -/
theorem Formed.of_depth (h : Formed N limit most v) (hdepth : v.depth ≤ most') :
    Formed N limit most' v := by
  induction h generalizing most' with
  | null => exact .null
  | bool b => exact .bool b
  | int h => exact .int h
  | float h => exact .float h
  | str h => exact .str h
  | arr _ ih =>
    cases most' with
    | zero => exact absurd hdepth (Nat.not_succ_le_zero _)
    | succ inner =>
      have hitems := itemsDepth_le.mp (Nat.le_of_succ_le_succ hdepth)
      exact .arr fun v hv => ih v hv (hitems v hv)
  | obj names kind _ ih =>
    cases most' with
    | zero => exact absurd hdepth (Nat.not_succ_le_zero _)
    | succ inner =>
      have hfields := fieldsDepth_le.mp (Nat.le_of_succ_le_succ hdepth)
      exact .obj names kind fun field hfield => ih field hfield (hfields field hfield)

/-- Containers of a formed value may nest deeper. -/
theorem Formed.mono (h : Formed N limit most v) (hle : most ≤ most') : Formed N limit most' v :=
  h.of_depth (h.depth_le.trans hle)

/-- A formed value has strings of each kind of which its texts are. -/
theorem Formed.of_texts (h : Formed N limit most v) (htexts : ∀ t ∈ v.texts, N' t) :
    Formed N' limit most v := by
  induction h with
  | null => exact .null
  | bool b => exact .bool b
  | int h => exact .int h
  | float h => exact .float h
  | str h => exact .str (htexts _ (List.mem_singleton_self _))
  | arr _ ih =>
    rw [texts, itemTexts_eq] at htexts
    exact .arr fun v hv => ih v hv fun t ht => htexts t (List.mem_flatMap.mpr ⟨v, hv, ht⟩)
  | obj names kind _ ih =>
    rw [texts, fieldTexts_eq] at htexts
    have hfields := fun field hfield t ht => htexts t (List.mem_flatMap.mpr ⟨field, hfield, ht⟩)
    exact .obj names (fun field hfield => hfields field hfield _ List.mem_cons_self)
      fun field hfield => ih field hfield fun t ht => hfields field hfield t (.tail _ ht)

/-- Leaving out numbers that are not finite keeps a value formed. -/
theorem Formed.finiteOnly (h : Formed N limit most v) : Formed N limit most v.finiteOnly := by
  induction h with
  | null => exact .null
  | bool b => exact .bool b
  | int h => exact .int h
  | float h =>
    rw [Json.finiteOnly]
    split
    · exact .float h
    · exact .null
  | str h => exact .str h
  | arr _ ih =>
    rw [Json.finiteOnly, finiteItems_eq]
    exact .arr (List.forall_mem_map.mpr ih)
  | @obj _ fields names kind _ ih =>
    rw [Json.finiteOnly, finiteFields_eq]
    have hnames : (fields.map fun field => (field.1, field.2.finiteOnly)).map Prod.fst =
        fields.map Prod.fst := List.map_map
    exact .obj (hnames ▸ names) (List.forall_mem_map.mpr kind) (List.forall_mem_map.mpr ih)

/-- A formed value is small enough for a document. -/
theorem Formed.sized (h : Formed N limit most v) : Sized limit most v := by
  induction h with
  | null => exact .null
  | bool b => exact .bool b
  | int h => exact .int h
  | float h => exact .float h
  | str => exact .str _
  | arr _ ih => exact .arr ih
  | obj _ _ _ ih => exact .obj ih

/-- Formed values that are written the same are the same value as documents spell it. -/
theorem Formed.respelled_eq (hv : Formed N limit most v) (hw : Formed N' limit most' w)
    (h : v.writeText = w.writeText) : v.respelled = w.respelled := by
  have hreadv := readValue_write (hv.mono (Nat.le_max_left most most')).sized endsNumeral_nil
  have hreadw := readValue_write (hw.mono (Nat.le_max_right most most')).sized endsNumeral_nil
  have hwrite : Text.ofChars v.write = Text.ofChars w.write := h
  rw [hwrite, hreadw] at hreadv
  exact (Prod.mk.inj (Except.ok.inj hreadv)).1.symm

/-- A value that a document can hold, whatever its strings are. -/
abbrev Regular (most : Nat) (v : Json) : Prop := v.Formed (fun _ => True) Limits.outside.digits most

/-- A regular value whose strings are texts of characters is read as it is written. -/
theorem Regular.read_write (h : v.Regular most) (htexts : v.strayHalf? = none) (limits : Limits)
    (hdigits : limits.digits = Limits.outside.digits) (hdepth : most ≤ limits.depth) :
    read limits v.writeText = .ok v := by
  have hscalar : v.Formed Text.IsUnpaired limits.digits limits.depth :=
    hdigits ▸ (h.mono hdepth).of_texts fun t ht =>
      Text.isUnpaired_of_isScalar (strayHalf?_eq_none.mp htexts t ht)
  rw [Json.read_write hscalar.fits.sized, hscalar.fits.respelled]

/-- An object with distinct names is regular if the values of its fields are. -/
theorem regular_obj (hnames : (fields.map Prod.fst).Nodup)
    (hvalues : ∀ field ∈ fields, field.2.Regular most) : (Json.obj fields).Regular (most + 1) :=
  .obj hnames (fun _ _ => trivial) hvalues

/-- An optional text is regular. -/
theorem regular_ofText? (t : Option Text) : (ofText? t).Regular most := by
  cases t with
  | none => exact .null
  | some t => exact .str trivial

/-- A list of texts is regular. -/
theorem regular_texts (texts : List Text) : (Json.arr (texts.map .str)).Regular (most + 1) :=
  .arr (List.forall_mem_map.mpr fun _ _ => .str trivial)

end Json

end Showrunner
