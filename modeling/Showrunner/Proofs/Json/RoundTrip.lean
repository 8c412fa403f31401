import Showrunner.Proofs.Json.Numbers
import Showrunner.Proofs.Json.Strings

/-!
# Written documents are read back

A written value is read again if it is small enough: its containers nest no deeper than a reader goes and
its integers have no more digits than a reader takes. What is read is the value as documents spell it, with
the halves of pairs joined that stand side by side in its strings; of fields whose names come out the same
the last one counts. A value without such halves and with distinct names in each object is read as it was.
-/

namespace Showrunner

namespace Json

/-- A value that is small enough for a document: containers nest to a depth, integers have no more digits
than a limit, and numbers are in their one form. -/
inductive Sized (limit : Option Nat) : Nat → Json → Prop
  | null {depth : Nat} : Sized limit depth .null
  | bool {depth : Nat} (b : Bool) : Sized limit depth (.bool b)
  | int {depth : Nat} {n : Int} (h : ∀ most ∈ limit, (Nat.toDigits 10 n.natAbs).length ≤ most) :
      Sized limit depth (.int n)
  | float {depth : Nat} {x : Binary64} (h : x.IsCanonical) : Sized limit depth (.float x)
  | str {depth : Nat} (t : Text) : Sized limit depth (.str t)
  | arr {depth : Nat} {items : List Json} (h : ∀ v ∈ items, Sized limit depth v) :
      Sized limit (depth + 1) (.arr items)
  | obj {depth : Nat} {fields : Fields} (h : ∀ field ∈ fields, Sized limit depth field.2) :
      Sized limit (depth + 1) (.obj fields)

mutual

/-- A value as documents spell it. -/
def respelled : Json → Json
  | .str t => .str t.paired
  | .arr items => .arr (respelledItems items)
  | .obj fields => .obj (respelledFields [] fields)
  | v => v

/-- The items of an array as documents spell them. -/
def respelledItems : List Json → List Json
  | [] => []
  | v :: rest => respelled v :: respelledItems rest

/-- The fields of an object as documents spell them, behind those that have been read. -/
def respelledFields (read : Fields) : List (Text × Json) → Fields
  | [] => read
  | (name, v) :: rest => respelledFields (Fields.put name.paired (respelled v) read) rest

end

variable {limit : Option Nat} {depth : Nat} {rest : Text} {v : Json}

/-! ## What values begin with -/

/-- What a value is written as begins with no blank, and does not end an array. -/
def Opens (cs : List Char) : Prop :=
  ∃ c more, cs = c :: more ∧ isBlank (.scalar c) = false ∧ c ≠ ']' ∧ c ≠ '\x7d' ∧ c ≠ '\uFEFF'

/-- What begins with a digit begins with no blank. -/
theorem opens_of_isAscii {c : Char} (hc : Digits.isAscii c = true) (more : List Char) :
    Opens (c :: more) := by
  have hne : ∀ d, Digits.isAscii d = false → c ≠ d := fun d hd => ne_of_isAscii hc hd
  refine ⟨c, more, rfl, ?_, hne _ (by decide), hne _ (by decide), hne _ (by decide)⟩
  simp [isBlank, hne ' ' (by decide), hne '\t' (by decide), hne '\n' (by decide),
    hne '\r' (by decide)]

/-- What begins with a digit, or with a sign and a digit, begins with no blank. -/
theorem opens_of_sign (negative : Bool) {c : Char} (hc : Digits.isAscii c = true) (more : List Char) :
    Opens ((if negative then ['-'] else []) ++ c :: more) := by
  cases negative with
  | true => exact ⟨_, _, rfl, rfl, by decide, by decide, by decide⟩
  | false => exact opens_of_isAscii hc more

/-- What a number is written as begins with a sign, a digit or a letter. -/
theorem opens_writeFloat {x : Binary64} (h : x.IsCanonical) : Opens (writeFloat x) := by
  cases x with
  | nan => exact ⟨_, _, rfl, rfl, by decide, by decide, by decide⟩
  | infinity negative => cases negative <;> exact ⟨_, _, rfl, rfl, by decide, by decide, by decide⟩
  | finite negative mantissa exponent =>
    obtain ⟨cs, c, more, hwrite, rfl, hc, -⟩ := exists_spells_finite h
    have hfloat : writeFloat (.finite negative mantissa exponent) =
        Binary64.write (.finite negative mantissa exponent) := rfl
    rw [hfloat, hwrite]
    exact opens_of_sign negative hc more

/-- What a value is written as begins with no blank, and does not end an array. -/
theorem opens_write (h : Sized limit depth v) : Opens (write v) := by
  cases h with
  | null => exact ⟨_, _, rfl, rfl, by decide, by decide, by decide⟩
  | bool b => cases b <;> exact ⟨_, _, rfl, rfl, by decide, by decide, by decide⟩
  | int =>
    rename_i n _
    obtain ⟨c, more, hdigits, -⟩ := Digits.exists_toDigits_eq_cons n.natAbs
    have hc : Digits.isAscii c = true :=
      Digits.isAscii_of_mem_toDigits (hdigits ▸ List.mem_cons_self)
    rw [write, toList_toString, hdigits]
    exact opens_of_sign _ hc more
  | float h => exact opens_writeFloat h
  | str t => exact ⟨_, _, rfl, rfl, by decide, by decide, by decide⟩
  | arr h => exact ⟨_, _, rfl, rfl, by decide, by decide, by decide⟩
  | obj h => exact ⟨_, _, rfl, rfl, by decide, by decide, by decide⟩

/-- What opens with no blank has no blanks to pass over. -/
theorem skipBlanks_of_opens {cs : List Char} (h : Opens cs) (rest : Text) :
    skipBlanks (Text.ofChars cs ++ rest) = Text.ofChars cs ++ rest := by
  obtain ⟨c, more, rfl, hblank, -⟩ := h
  exact List.dropWhile_cons_of_neg (Bool.eq_false_iff.mp hblank)

/-- A reader reads what each of some values is written as. -/
def Reads (item : Text → Reading Json) (items : List Json) : Prop :=
  ∀ v ∈ items, Opens (write v) ∧
    ∀ rest, EndsNumeral rest → item (Text.ofChars (write v) ++ rest) = .ok (v.respelled, rest)

/-- The written items of an array open with no blank. -/
theorem opens_writeItems {items : List Json} (hne : items ≠ [])
    (h : ∀ v ∈ items, Opens (write v)) : Opens (writeItems items) := by
  cases items with
  | nil => exact absurd rfl hne
  | cons v more =>
    obtain ⟨c, rest, hwrite, hopens⟩ := h v List.mem_cons_self
    cases more with
    | nil =>
      rw [writeItems]
      exact ⟨c, rest, hwrite, hopens⟩
    | cons w more =>
      rw [writeItems, hwrite]
      · exact ⟨c, _, rfl, hopens⟩
      · exact List.cons_ne_nil _ _

/-- The written items of an array are read up to its end. -/
theorem readItems_write {item : Text → Reading Json} {items : List Json} (hne : items ≠ [])
    (h : Reads item items) {fuel : Nat} (hfuel : items.length ≤ fuel) (read : List Json)
    (rest : Text) :
    readItems item fuel read (Text.ofChars (writeItems items) ++ .scalar ']' :: rest) =
      .ok (read.reverse ++ respelledItems items, rest) := by
  induction items generalizing fuel read with
  | nil => exact absurd rfl hne
  | cons v more ih =>
    obtain ⟨fuel, rfl⟩ := Nat.exists_eq_succ_of_ne_zero (Nat.ne_zero_of_lt hfuel)
    obtain ⟨hv, hmore⟩ := List.forall_mem_cons.mp h
    cases more with
    | nil =>
      rw [writeItems, readItems, hv.2 _ (endsNumeral_cons (by decide) rest)]
      change Except.ok ((v.respelled :: read).reverse, rest) = _
      rw [List.reverse_cons]
      rfl
    | cons w more =>
      have hopens := opens_writeItems (List.cons_ne_nil w more) fun u hu => (hmore u hu).1
      have hsplit : Text.ofChars (writeItems (v :: w :: more)) ++ .scalar ']' :: rest =
          Text.ofChars (write v) ++ .scalar ',' :: .scalar ' ' ::
            (Text.ofChars (writeItems (w :: more)) ++ .scalar ']' :: rest) := by
        rw [writeItems]
        · simp [Text.ofChars]
        · exact List.cons_ne_nil _ _
      have hnext := ih (List.cons_ne_nil w more) hmore (Nat.le_of_succ_le_succ hfuel)
        (v.respelled :: read)
      rw [hsplit, readItems, hv.2 _ (endsNumeral_cons (by decide) _)]
      change readItems item fuel (v.respelled :: read) (skipBlanks (.scalar ' ' ::
        (Text.ofChars (writeItems (w :: more)) ++ .scalar ']' :: rest))) = _
      have hblank : skipBlanks (.scalar ' ' ::
          (Text.ofChars (writeItems (w :: more)) ++ .scalar ']' :: rest)) =
          skipBlanks (Text.ofChars (writeItems (w :: more)) ++ .scalar ']' :: rest) := rfl
      rw [hblank, skipBlanks_of_opens hopens, hnext, List.reverse_cons, List.append_assoc]
      rfl

/-- A field is written as its name and its value, up to what follows it. -/
theorem exists_after_field (name : Text) (v : Json) (more : Fields) (rest : Text) :
    ∃ after, EndsNumeral after ∧
      Text.ofChars (writeFields ((name, v) :: more)) ++ .scalar '\x7d' :: rest =
        .scalar '"' :: (Text.ofChars (name.flatMap escapePoint) ++ .scalar '"' :: .scalar ':' ::
          .scalar ' ' :: (Text.ofChars (write v) ++ after)) ∧
      ((more = [] ∧ after = .scalar '\x7d' :: rest) ∨
        (more ≠ [] ∧ after = .scalar ',' :: .scalar ' ' ::
          (Text.ofChars (writeFields more) ++ .scalar '\x7d' :: rest))) := by
  cases more with
  | nil =>
    refine ⟨_, endsNumeral_cons (by decide) _, ?_, .inl ⟨rfl, rfl⟩⟩
    simp [writeFields, writeString, Text.ofChars]
  | cons field more =>
    refine ⟨_, endsNumeral_cons (by decide) _, ?_, .inr ⟨List.cons_ne_nil _ _, rfl⟩⟩
    rw [writeFields]
    · simp [writeString, Text.ofChars]
    · exact List.cons_ne_nil _ _

/-- The written fields of an object open with the quote of a name. -/
theorem opens_writeFields {fields : Fields} (hne : fields ≠ []) : Opens (writeFields fields) := by
  cases fields with
  | nil => exact absurd rfl hne
  | cons field more =>
    cases more with
    | nil => exact ⟨_, _, rfl, rfl, by decide, by decide, by decide⟩
    | cons other more => exact ⟨_, _, rfl, rfl, by decide, by decide, by decide⟩

/-- The written fields of an object are read up to its end. -/
theorem readFields_write {item : Text → Reading Json} {fields : Fields} (hne : fields ≠ [])
    (h : Reads item (fields.map Prod.snd)) {fuel : Nat} (hfuel : fields.length ≤ fuel) (read : Fields)
    (rest : Text) :
    readFields item fuel read (Text.ofChars (writeFields fields) ++ .scalar '\x7d' :: rest) =
      .ok (respelledFields read fields, rest) := by
  induction fields generalizing fuel read with
  | nil => exact absurd rfl hne
  | cons field more ih =>
    obtain ⟨name, v⟩ := field
    obtain ⟨fuel, rfl⟩ := Nat.exists_eq_succ_of_ne_zero (Nat.ne_zero_of_lt hfuel)
    obtain ⟨⟨hopens, hv⟩, hmore⟩ := List.forall_mem_cons.mp h
    obtain ⟨after, hends, hsplit, hafter⟩ := exists_after_field name v more rest
    have hblank : skipBlanks (.scalar ' ' :: (Text.ofChars (write v) ++ after)) =
        Text.ofChars (write v) ++ after := skipBlanks_of_opens hopens after
    have hcolon : skipBlanks (.scalar ':' :: .scalar ' ' :: (Text.ofChars (write v) ++ after)) =
        .scalar ':' :: .scalar ' ' :: (Text.ofChars (write v) ++ after) := rfl
    rw [hsplit, readFields, readChars_write _ false name (by simp)]
    simp only [bind, Except.bind, hcolon, hblank, hv after hends, List.reverse_nil, List.nil_append]
    -- behind the value the object ends, or a comma leads to the next name
    rcases hafter with ⟨rfl, rfl⟩ | ⟨hmorene, rfl⟩
    · rfl
    · have hnext := opens_writeFields hmorene
      have hspace : skipBlanks (.scalar ' ' ::
          (Text.ofChars (writeFields more) ++ .scalar '\x7d' :: rest)) =
          Text.ofChars (writeFields more) ++ .scalar '\x7d' :: rest :=
        skipBlanks_of_opens hnext _
      have hcomma : skipBlanks (.scalar ',' :: .scalar ' ' ::
          (Text.ofChars (writeFields more) ++ .scalar '\x7d' :: rest)) = .scalar ',' :: .scalar ' ' ::
          (Text.ofChars (writeFields more) ++ .scalar '\x7d' :: rest) := rfl
      rw [hcomma]
      change readFields item fuel (Fields.put name.paired v.respelled read) (skipBlanks (.scalar ' ' ::
        (Text.ofChars (writeFields more) ++ .scalar '\x7d' :: rest))) = _
      rw [hspace, ih hmorene hmore (Nat.le_of_succ_le_succ hfuel)]
      rfl

/-- A written array or object is no shorter than the number of its parts. -/
theorem length_le_writeItems {items : List Json} (h : ∀ v ∈ items, Opens (write v)) :
    items.length ≤ (writeItems items).length := by
  induction items with
  | nil => exact Nat.le_refl _
  | cons v more ih =>
    obtain ⟨⟨c, rest, hwrite, -⟩, hmore⟩ := List.forall_mem_cons.mp h
    cases more with
    | nil => rw [writeItems, hwrite, List.length_cons, List.length_cons]; exact Nat.le_add_left _ _
    | cons w more =>
      have hlength := ih hmore
      rw [writeItems]
      · simp only [List.length_cons, List.length_append] at hlength ⊢
        omega
      · exact List.cons_ne_nil _ _

/-- The written fields of an object are no fewer than its fields. -/
theorem length_le_writeFields (fields : Fields) : fields.length ≤ (writeFields fields).length := by
  induction fields with
  | nil => exact Nat.le_refl _
  | cons field more ih =>
    cases more with
    | nil => simp [writeFields, writeString]
    | cons other more =>
      rw [writeFields]
      · simp only [List.length_cons, List.length_append] at ih ⊢
        omega
      · exact List.cons_ne_nil _ _

/-- A written array whose items are read in turn is read. -/
theorem readValue_arr {items : List Json} (hne : items ≠ [])
    (h : Reads (readValue limit depth) items) (rest : Text) :
    readValue limit (depth + 1) (Text.ofChars (write (.arr items)) ++ rest) =
      .ok ((Json.arr items).respelled, rest) := by
  have hitems : ∀ v ∈ items, Opens (write v) := fun v hv => (h v hv).1
  have hopens := opens_writeItems hne hitems
  have hsplit : Text.ofChars (write (.arr items)) ++ rest =
      .scalar '[' :: (Text.ofChars (writeItems items) ++ .scalar ']' :: rest) := by
    simp [write, Text.ofChars]
  have hlength := length_le_writeItems hitems
  have hread := fun fuel hfuel => @readItems_write _ _ hne h fuel hfuel [] rest
  rw [hsplit, readValue, skipBlanks_of_opens hopens]
  split
  · next rest' hend =>
    obtain ⟨c, more, hwrite, -, hc, -⟩ := hopens
    rw [hwrite] at hend
    exact absurd (CodePoint.scalar.inj (List.cons.inj hend).1) hc
  · rw [hread _ (by simp [Text.ofChars]; omega)]
    rfl

/-- A written object whose fields are read in turn is read. -/
theorem readValue_obj {fields : Fields} (hne : fields ≠ [])
    (h : Reads (readValue limit depth) (fields.map Prod.snd)) (rest : Text) :
    readValue limit (depth + 1) (Text.ofChars (write (.obj fields)) ++ rest) =
      .ok ((Json.obj fields).respelled, rest) := by
  have hopens := opens_writeFields hne
  have hsplit : Text.ofChars (write (.obj fields)) ++ rest =
      .scalar '\x7b' :: (Text.ofChars (writeFields fields) ++ .scalar '\x7d' :: rest) := by
    simp [write, Text.ofChars]
  have hlength := length_le_writeFields fields
  have hread := fun fuel hfuel => @readFields_write _ _ hne h fuel hfuel [] rest
  rw [hsplit, readValue, skipBlanks_of_opens hopens]
  split
  · next rest' hend =>
    obtain ⟨c, more, hwrite, -, -, hc, -⟩ := hopens
    rw [hwrite] at hend
    exact absurd (CodePoint.scalar.inj (List.cons.inj hend).1) hc
  · rw [hread _ (by simp [Text.ofChars]; omega)]
    rfl

/-- A written value that is small enough is read as documents spell it. -/
theorem readValue_write (h : Sized limit depth v) (hrest : EndsNumeral rest) :
    readValue limit depth (Text.ofChars (write v) ++ rest) = .ok (v.respelled, rest) := by
  induction h generalizing rest with
  | @null depth => cases depth <;> rfl
  | @bool depth b => cases b <;> cases depth <;> rfl
  | int h => exact readValue_writeInt h hrest
  | float h => exact readValue_writeFloat h hrest
  | str t =>
    have hsplit : Text.ofChars (write (.str t)) ++ rest =
        .scalar '"' :: (Text.ofChars (t.flatMap escapePoint) ++ .scalar '"' :: rest) := by
      simp [write, writeString, Text.ofChars]
    rw [hsplit, readValue, readChars_write _ false t (by simp)]
    rfl
  | @arr depth items h ih =>
    by_cases hne : items = []
    · subst hne
      rfl
    · exact readValue_arr hne (fun v hv => ⟨opens_write (h v hv), fun rest hrest => ih v hv hrest⟩) rest
  | @obj depth fields h ih =>
    by_cases hne : fields = []
    · subst hne
      rfl
    · refine readValue_obj hne (fun v hv => ?_) rest
      obtain ⟨field, hfield, rfl⟩ := List.mem_map.mp hv
      exact ⟨opens_write (h field hfield), fun rest hrest => ih field hfield hrest⟩

/-- A written document that is small enough for the limits is read as documents spell its value. -/
theorem read_write {limits : Limits} (h : Sized limits.digits limits.depth v) :
    read limits (writeText v) = .ok v.respelled := by
  obtain ⟨c, more, hwrite, hblank, -, -, hmark⟩ := opens_write h
  have hread := readValue_write h endsNumeral_nil
  have hopens := skipBlanks_of_opens (opens_write h) []
  rw [List.append_nil] at hread hopens
  have halone : read limits (writeText v) = readAlone limits (writeText v) := by
    rw [writeText, hwrite, read]
    exact fun rest hsame => hmark (CodePoint.scalar.inj (List.cons.inj hsame).1)
  rw [halone, readAlone, writeText, hopens, hread]
  rfl

/-! ## Values that documents spell as they are -/

/-- A value that is small enough for a document, which spells it as it is. -/
structure Fits (limit : Option Nat) (depth : Nat) (v : Json) : Prop where
  sized : Sized limit depth v
  respelled : v.respelled = v

/-- A string without split pairs is spelled as it is. -/
theorem fits_str {t : Text} (h : t.IsUnpaired) : Fits limit depth (.str t) :=
  ⟨.str t, congrArg Json.str (Text.paired_of_isUnpaired h)⟩

/-- Items that are spelled as they are leave a list as it is. -/
theorem respelledItems_eq_self {items : List Json} (h : ∀ v ∈ items, v.respelled = v) :
    respelledItems items = items := by
  induction items with
  | nil => rfl
  | cons v more ih =>
    obtain ⟨hv, hmore⟩ := List.forall_mem_cons.mp h
    rw [respelledItems, hv, ih hmore]

/-- A name that is new is given its value at the end. -/
theorem put_of_not_mem {fields : Fields} {name : Text} (h : name ∉ fields.map Prod.fst) (v : Json) :
    Fields.put name v fields = fields ++ [(name, v)] := by
  induction fields with
  | nil => rfl
  | cons field rest ih =>
    rw [List.map_cons, List.mem_cons, not_or] at h
    rw [Fields.put, if_neg (Ne.symm h.1), ih h.2, List.cons_append]

/-- Fields with distinct names that are spelled as they are are put behind those that have been read. -/
theorem respelledFields_eq_append {read fields : Fields}
    (hnames : ((read ++ fields).map Prod.fst).Nodup)
    (h : ∀ field ∈ fields, field.1.IsUnpaired ∧ field.2.respelled = field.2) :
    respelledFields read fields = read ++ fields := by
  induction fields generalizing read with
  | nil => exact (List.append_nil read).symm
  | cons field more ih =>
    obtain ⟨name, v⟩ := field
    obtain ⟨⟨hname, hv⟩, hmore⟩ := List.forall_mem_cons.mp h
    have hnew : name ∉ read.map Prod.fst := by
      rw [List.map_append, List.nodup_append] at hnames
      exact fun hmem => hnames.2.2 name hmem name List.mem_cons_self rfl
    rw [List.append_cons] at hnames
    rw [respelledFields, Text.paired_of_isUnpaired hname, hv, put_of_not_mem hnew, ih hnames hmore,
      ← List.append_cons]

/-- An array is spelled as it is if its items are. -/
theorem fits_arr {items : List Json} (h : ∀ v ∈ items, Fits limit depth v) :
    Fits limit (depth + 1) (.arr items) :=
  ⟨.arr fun v hv => (h v hv).sized,
    congrArg Json.arr (respelledItems_eq_self fun v hv => (h v hv).respelled)⟩

/-- The fields of an object that documents spell as it is: their names are distinct and have no split
pairs, and their values fit. -/
structure FieldsFit (limit : Option Nat) (depth : Nat) (fields : Fields) : Prop where
  names : (fields.map Prod.fst).Nodup
  unpaired : ∀ field ∈ fields, field.1.IsUnpaired
  values : ∀ field ∈ fields, Fits limit depth field.2

/-- An object is spelled as it is if its fields are. -/
theorem fits_obj {fields : Fields} (h : FieldsFit limit depth fields) :
    Fits limit (depth + 1) (.obj fields) :=
  ⟨.obj fun field hfield => (h.values field hfield).sized,
    congrArg Json.obj (respelledFields_eq_append h.names fun field hfield =>
      ⟨h.unpaired field hfield, (h.values field hfield).respelled⟩)⟩

end Json

end Showrunner
