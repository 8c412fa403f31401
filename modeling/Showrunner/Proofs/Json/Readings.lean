import Showrunner.Proofs.Json.RoundTrip
import Showrunner.Proofs.Outcome

/-!
# What documents spell

What is read from a document has distinct names in each object, integers of no more digits than are taken,
numbers in their one form, and containers that nest no deeper than a reader goes. What its strings are
depends on the document: in a document of characters no halves of a pair stand side by side in a string,
but a text that begins outside of this library may hold such halves, and an escaped half beside one is not
joined to it. So a value that was read from a document of characters can be written and read again.
-/

namespace Showrunner

namespace Json

variable {α β : Type} {limit : Option Nat} {depth : Nat} {t : Text} {v : Json}

/-- Fields with distinct names of a kind and values of a kind. -/
structure Named (N : Text → Prop) (P : Json → Prop) (fields : Fields) : Prop where
  names : (fields.map Prod.fst).Nodup
  kind : ∀ field ∈ fields, N field.1
  values : ∀ field ∈ fields, P field.2

/-- A value with strings of a kind that is small enough for a document and has distinct names in each
object. -/
inductive Formed (N : Text → Prop) (limit : Option Nat) : Nat → Json → Prop
  | null {depth : Nat} : Formed N limit depth .null
  | bool {depth : Nat} (b : Bool) : Formed N limit depth (.bool b)
  | int {depth : Nat} {n : Int} (h : ∀ most ∈ limit, (Nat.toDigits 10 n.natAbs).length ≤ most) :
      Formed N limit depth (.int n)
  | float {depth : Nat} {x : Binary64} (h : x.IsCanonical) : Formed N limit depth (.float x)
  | str {depth : Nat} {t : Text} (h : N t) : Formed N limit depth (.str t)
  | arr {depth : Nat} {items : List Json} (h : ∀ v ∈ items, Formed N limit depth v) :
      Formed N limit (depth + 1) (.arr items)
  | obj {depth : Nat} {fields : Fields} (names : (fields.map Prod.fst).Nodup)
      (kind : ∀ field ∈ fields, N field.1) (values : ∀ field ∈ fields, Formed N limit depth field.2) :
      Formed N limit (depth + 1) (.obj fields)

/-- A reader of a text of a kind reads something with a property, and leaves a text of the kind, or refuses
the text. -/
def Yields (S : Text → Prop) (P : α → Prop) : Except Refusal (α × Text) → Prop
  | .ok (a, rest) => P a ∧ S rest
  | .error _ => True

/-- Strings of a kind are read from texts of a kind, which go on with texts of the kind. -/
structure Source (S N : Text → Prop) : Prop where
  passing : ∀ {t t' : Text}, S t → Passes t t' → S t'
  string : ∀ (opened : Nat) {t : Text}, S (.scalar '"' :: t) → Yields S N (readChars opened [] false t)

variable {S N : Text → Prop}

/-- A reader goes on with what another has read and left. -/
theorem Yields.bind {P : α → Prop} {Q : β → Prop} {r : Except Refusal (α × Text)}
    {f : α × Text → Except Refusal (β × Text)} (h : Yields S P r)
    (hf : ∀ a rest, P a → S rest → Yields S Q (f (a, rest))) : Yields S Q (r >>= f) := by
  rcases r with refusal | ⟨a, rest⟩
  · trivial
  · exact hf a rest h.1 h.2

/-! ## Strings -/

/-- Code points of a string that have been read, the latest first: no halves of a pair stand side by
side, and the latest is a first half only if that is known. -/
structure HalvesRead (read : Text) (half : Bool) : Prop where
  unpaired : read.IsChain fun p q => CodePoint.joinHalves? q p = none
  known : ∀ p ∈ read.head?, p.isHighHalf = true → half = true

variable {read : Text} {half : Bool}

/-- Adding a code point that joins nothing. -/
theorem HalvesRead.cons (h : HalvesRead read half) {p : CodePoint}
    (hp : ∀ first ∈ read.head?, CodePoint.joinHalves? first p = none) :
    HalvesRead (p :: read) p.isHighHalf where
  unpaired := by
    cases read with
    | nil => exact .singleton p
    | cons first before => exact .cons_cons (hp first rfl) h.unpaired
  known := fun q hq hhigh => by
    obtain rfl := Option.some.inj hq
    exact hhigh

/-- Adding a character. -/
theorem HalvesRead.char (h : HalvesRead read half) (c : Char) : HalvesRead (.scalar c :: read) false :=
  h.cons fun first _ => CodePoint.joinHalves?_scalar first c

/-- Adding an escaped code point. -/
theorem HalvesRead.escaped (h : HalvesRead read half) (p : CodePoint) :
    HalvesRead (addEscaped read half p) p.isHighHalf := by
  cases read with
  | nil => cases half <;> exact h.cons fun first hfirst => nomatch hfirst
  | cons first before =>
    cases half with
    | false =>
      refine h.cons fun q hq => ?_
      exact CodePoint.joinHalves?_of_not_high (fun hhigh => Bool.false_ne_true (h.known q hq hhigh)) p
    | true =>
      rw [addEscaped]
      cases hjoin : CodePoint.joinHalves? first p with
      | none =>
        refine h.cons fun q hq => ?_
        obtain rfl := Option.some.inj hq
        exact hjoin
      | some c =>
        have hlow : p.isHighHalf = false := by
          cases p with
          | scalar c => rfl
          | surrogate n =>
            refine decide_eq_false fun hn => ?_
            rw [CodePoint.joinHalves?_of_high first hn] at hjoin
            cases hjoin
        rw [hlow]
        -- the character takes the place of the first half, and nothing joins a character
        have hbefore : HalvesRead before true := ⟨h.unpaired.tail, fun _ _ _ => rfl⟩
        exact hbefore.char c

/-- A string that is read from characters has no halves of a pair side by side. -/
theorem readChars_yields (opened : Nat) (h : HalvesRead read half) (ht : t.isScalar = true) :
    Yields (·.isScalar = true) Text.IsUnpaired (readChars opened read half t) := by
  fun_induction readChars opened read half t with
  | case1 | case4 | case5 | case7 | case8 | case9 => trivial
  | case2 read half rest =>
    exact ⟨List.isChain_reverse.mpr h.unpaired, Text.isScalar_of_suffix ht (List.suffix_cons _ rest)⟩
  | case3 read half a b c d n next rest hn p grown ih =>
    exact ih (h.escaped p)
      (Text.isScalar_of_suffix ht ⟨[.scalar '\\', .scalar 'u', a, b, c, d], rfl⟩)
  | case6 read half p rest _ _ c hc ih =>
    exact ih (h.char c) (Text.isScalar_of_suffix ht ⟨[.scalar '\\', p], rfl⟩)
  | case10 read half p rest _ _ _ _ _ hp ih =>
    cases p with
    | scalar c => exact ih (h.char c) (Text.isScalar_of_suffix ht (List.suffix_cons _ rest))
    | surrogate n =>
      rw [Text.isScalar, List.all_cons] at ht
      cases (Bool.and_eq_true_iff.mp ht).1

/-- In texts of characters strings have no halves of a pair side by side. -/
theorem source_scalar : Source (·.isScalar = true) Text.IsUnpaired where
  passing := fun ht hpasses => Text.isScalar_of_suffix ht hpasses.suffix
  string := fun opened t ht => readChars_yields opened ⟨.nil, fun _ hp => nomatch hp⟩
    (Text.isScalar_of_suffix ht (List.suffix_cons _ t))

/-- Of texts that may be any, strings may be any. -/
theorem source_any : Source (fun _ => True) fun _ => True where
  passing := fun _ _ => trivial
  string := fun opened t _ => by
    cases readChars opened [] false t with
    | error refusal => trivial
    | ok read => exact ⟨trivial, trivial⟩

/-! ## Numerals -/

/-- A number has no more digits than what it is read from. -/
theorem length_toDigits_natOf_le {digits : List Char} (hne : digits ≠ []) :
    (Nat.toDigits 10 (Digits.natOf digits)).length ≤ digits.length :=
  (Nat.length_toDigits_le_iff (by decide) (List.length_pos_iff.mpr hne)).mpr (Digits.natOf_lt digits)

/-- An integer that is read has no more digits than are taken. -/
theorem formed_int_of_short {digits : List Char} (hne : digits ≠ [])
    (hshort : ¬limit.any (· < digits.length) = true) (negative : Bool) :
    Formed N limit depth
      (.int (if negative then -(Digits.natOf digits : Int) else Digits.natOf digits)) := by
  refine .int fun most hmost => ?_
  have hlength : digits.length ≤ most := by
    rw [Option.mem_def] at hmost
    subst hmost
    exact Nat.le_of_not_lt fun hlong => hshort (decide_eq_true hlong)
  have hsize : (if negative then -(Digits.natOf digits : Int) else Digits.natOf digits).natAbs =
      Digits.natOf digits := by
    cases negative <;> simp
  rw [hsize]
  exact (length_toDigits_natOf_le hne).trans hlength

section

variable (hsource : Source S N)

include hsource

/-- A number that is read behind its integer part is formed. -/
theorem readBehindWhole_yields (negative : Bool) {whole : List Char} (hwhole : whole ≠ []) (ht : S t) :
    Yields S (Formed N limit depth) (readBehindWhole limit negative whole t) := by
  have hending := hsource.passing ht (passes_behind_whole t)
  rw [readBehindWhole]
  dsimp only
  split
  · split
    · trivial
    · next hshort => exact ⟨formed_int_of_short hwhole hshort negative, hending⟩
  · exact ⟨.float (Binary64.isCanonical_ofDecimal _ _ _), hending⟩

/-- A numeral that is read is formed. -/
theorem readNumeral_yields (negative : Bool) {r : Reading Json} (ht : S t)
    (h : readNumeral limit negative t = some r) : Yields S (Formed N limit depth) r := by
  have happend := digitRun_append t
  unfold readNumeral at h
  split at h
  · cases h
  · next more rest hsplit =>
    rw [hsplit] at happend
    obtain rfl := Option.some.inj h
    have hzero : t = .scalar '0' :: (Text.ofChars more ++ rest) := happend.symm
    rw [hzero] at ht
    exact readBehindWhole_yields hsource negative (List.cons_ne_nil _ _)
      (hsource.passing ht (.cons rfl _))
  · next run rest hne _ hsplit =>
    have hrun := passes_digitRun t
    rw [hsplit] at hrun
    obtain rfl := Option.some.inj h
    refine readBehindWhole_yields hsource negative (fun hnil => ?_) (hsource.passing ht hrun)
    exact hne hnil

/-- A numeral that is read with its sign is formed. -/
theorem readSigned_yields {r : Reading Json} (ht : S t) (h : readSigned limit t = some r) :
    Yields S (Formed N limit depth) r := by
  unfold readSigned at h
  split at h
  · exact readNumeral_yields hsource true (hsource.passing ht (.cons rfl _)) h
  · exact readNumeral_yields hsource false ht h

omit hsource in
/-- The values with a name of their own are formed. -/
theorem formed_constants : ∀ entry ∈ constants, Formed N limit depth entry.2 := by
  intro entry hentry
  simp only [constants, List.mem_cons, List.not_mem_nil, or_false] at hentry
  rcases hentry with rfl | rfl | rfl | rfl | rfl | rfl
  · exact .null
  · exact .bool true
  · exact .bool false
  all_goals exact .float trivial

/-- A value without parts that is read is formed. -/
theorem readAtom_yields (ht : S t) : Yields S (Formed N limit depth) (readAtom limit t) := by
  unfold readAtom
  split
  · next found hfound =>
    obtain ⟨⟨name, v⟩, hentry, hname⟩ := List.exists_of_findSome?_eq_some hfound
    obtain ⟨rest, hrest, rfl⟩ := Option.map_eq_some_iff.mp hname
    exact ⟨formed_constants _ hentry, hsource.passing ht (passes_constant hentry hrest)⟩
  · cases hread : readSigned limit t with
    | none => trivial
    | some r => exact readSigned_yields hsource ht hread

end

/-! ## Containers -/

/-- The fields that there are once a name has been given a value. -/
theorem mem_put {fields : Fields} {name : Text} {v : Json} {field : Text × Json}
    (h : field ∈ Fields.put name v fields) : field = (name, v) ∨ field ∈ fields := by
  induction fields with
  | nil => exact .inl (List.mem_singleton.mp h)
  | cons other rest ih =>
    rw [Fields.put] at h
    split at h
    · exact (List.mem_cons.mp h).imp_right (List.mem_cons_of_mem _)
    · rcases List.mem_cons.mp h with rfl | hmem
      · exact .inr List.mem_cons_self
      · exact (ih hmem).imp_right (List.mem_cons_of_mem _)

/-- Giving a name a value keeps the names distinct. -/
theorem nodup_put {fields : Fields} (h : (fields.map Prod.fst).Nodup) (name : Text) (v : Json) :
    ((Fields.put name v fields).map Prod.fst).Nodup := by
  induction fields with
  | nil => exact List.nodup_singleton name
  | cons other rest ih =>
    obtain ⟨hother, hrest⟩ := List.nodup_cons.mp h
    rw [Fields.put]
    split
    · next hsame => exact List.nodup_cons.mpr ⟨hsame ▸ hother, hrest⟩
    · next hdiffer =>
      refine List.nodup_cons.mpr ⟨fun hmem => ?_, ih hrest⟩
      obtain ⟨field, hfield, hname⟩ := List.mem_map.mp hmem
      rcases mem_put hfield with rfl | hfield
      · exact hdiffer hname.symm
      · exact hother (hname ▸ List.mem_map_of_mem hfield)

section

variable {P : Json → Prop} {fields : Fields}

/-- There are no fields at first. -/
theorem Named.nil : Named N P [] where
  names := List.nodup_nil
  kind := fun _ h => absurd h List.not_mem_nil
  values := fun _ h => absurd h List.not_mem_nil

/-- Giving a name of the kind a value of the kind. -/
theorem Named.put (h : Named N P fields) {name : Text} (hname : N name) (hv : P v) :
    Named N P (Fields.put name v fields) where
  names := nodup_put h.names name v
  kind := fun field hfield => by
    rcases mem_put hfield with rfl | hfield
    · exact hname
    · exact h.kind field hfield
  values := fun field hfield => by
    rcases mem_put hfield with rfl | hfield
    · exact hv
    · exact h.values field hfield

/-- There are no fields at first. -/
theorem FieldsFit.nil (limit : Option Nat) (depth : Nat) : FieldsFit limit depth [] :=
  let h := Named.nil
  ⟨h.names, h.kind, h.values⟩

/-- Giving a name a value that fits. -/
theorem FieldsFit.put {fields : Fields} (h : FieldsFit limit depth fields) {name : Text}
    (hname : name.IsUnpaired) (hv : Fits limit depth v) :
    FieldsFit limit depth (Fields.put name v fields) :=
  let h := Named.put ⟨h.names, h.unpaired, h.values⟩ hname hv
  ⟨h.names, h.kind, h.values⟩

end

section

variable (hsource : Source S N)

include hsource

/-- Behind a plain code point and blanks a text goes on with a text of its kind. -/
theorem Source.skipBlanks {p : CodePoint} (hp : isPlain p = true) (h : S (p :: t)) :
    S (Json.skipBlanks t) :=
  hsource.passing h ((Passes.cons hp t).trans (passes_skipBlanks t))

/-- The items of an array that are read are formed if each item that is read is. -/
theorem readItems_yields {item : Text → Reading Json}
    (hitem : ∀ t : Text, S t → Yields S (Formed N limit depth) (item t)) (fuel : Nat)
    {read : List Json} (hread : ∀ v ∈ read, Formed N limit depth v) (ht : S t) :
    Yields S (∀ v ∈ ·, Formed N limit depth v) (readItems item fuel read t) := by
  induction fuel generalizing read t with
  | zero => trivial
  | succ fuel ih =>
    rw [readItems]
    refine (hitem t ht).bind fun v rest hv hrest => ?_
    have hblanks := hsource.passing hrest (passes_skipBlanks rest)
    have hgrown : ∀ w ∈ v :: read, Formed N limit depth w := List.forall_mem_cons.mpr ⟨hv, hread⟩
    dsimp only
    split
    · next behind hend =>
      rw [hend] at hblanks
      exact ⟨fun w hw => hgrown w (List.mem_reverse.mp hw),
        hsource.passing hblanks (.cons rfl behind)⟩
    · next behind hcomma =>
      rw [hcomma] at hblanks
      exact ih hgrown (hsource.skipBlanks rfl hblanks)
    · trivial

/-- The fields of an object that are read are formed if the value of each is. -/
theorem readFields_yields {item : Text → Reading Json}
    (hitem : ∀ t : Text, S t → Yields S (Formed N limit depth) (item t)) (fuel : Nat)
    {read : Fields} (hread : Named N (Formed N limit depth) read) (ht : S t) :
    Yields S (Named N (Formed N limit depth)) (readFields item fuel read t) := by
  induction fuel generalizing read t with
  | zero => trivial
  | succ fuel ih =>
    unfold readFields
    split
    · next behind =>
      refine (hsource.string _ ht).bind fun name rest hname hrest => ?_
      have hcolons := hsource.passing hrest (passes_skipBlanks rest)
      dsimp only
      split
      · next value hcolon =>
        rw [hcolon] at hcolons
        refine (hitem _ (hsource.skipBlanks rfl hcolons)).bind fun v rest hv hrest => ?_
        have hblanks := hsource.passing hrest (passes_skipBlanks rest)
        have hgrown := hread.put hname hv
        dsimp only
        split
        · next behind hend =>
          rw [hend] at hblanks
          exact ⟨hgrown, hsource.passing hblanks (.cons rfl behind)⟩
        · next behind hcomma =>
          rw [hcomma] at hblanks
          exact ih hgrown (hsource.skipBlanks rfl hblanks)
        · trivial
      · trivial
    · trivial

/-- A value that is read is formed. -/
theorem readValue_yields (depth : Nat) (ht : S t) :
    Yields S (Formed N limit depth) (readValue limit depth t) := by
  induction depth using Nat.strongRecOn generalizing t with
  | ind depth ih =>
    fun_cases readValue limit depth t with
    | case1 _ rest =>
      exact (hsource.string _ ht).bind fun name rest' hname hrest' => ⟨.str hname, hrest'⟩
    | case2 | case3 => trivial
    | case4 depth rest behind hend =>
      have hblanks := hsource.skipBlanks rfl ht
      rw [hend] at hblanks
      exact ⟨.arr fun v hv => absurd hv List.not_mem_nil,
        hsource.passing hblanks (.cons rfl behind)⟩
    | case5 depth rest _ =>
      have hitems := readItems_yields hsource (fun t ht => ih depth (Nat.lt_succ_self depth) ht)
        ((skipBlanks rest).length + 1) (fun v hv => absurd hv List.not_mem_nil)
        (hsource.skipBlanks rfl ht)
      exact hitems.bind fun items rest' hitems hrest' => ⟨.arr hitems, hrest'⟩
    | case6 depth rest behind hend =>
      have hblanks := hsource.skipBlanks rfl ht
      rw [hend] at hblanks
      exact ⟨.obj List.nodup_nil (fun _ h => absurd h List.not_mem_nil)
          (fun _ h => absurd h List.not_mem_nil),
        hsource.passing hblanks (.cons rfl behind)⟩
    | case7 depth rest _ =>
      have hfields := readFields_yields hsource (fun t ht => ih depth (Nat.lt_succ_self depth) ht)
        ((skipBlanks rest).length + 1) .nil (hsource.skipBlanks rfl ht)
      exact hfields.bind fun fields rest' hfields hrest' =>
        ⟨.obj hfields.names hfields.kind hfields.values, hrest'⟩
    | case8 => exact readAtom_yields hsource ht

/-- A value that is read with blanks around it is formed, and nothing is left behind it. -/
theorem readAlone_yields {limits : Limits} (ht : S t) (h : readAlone limits t = .ok v) :
    Formed N limits.digits limits.depth v ∧ S [] := by
  have hyields : Yields S (Formed N limits.digits limits.depth)
      (readValue limits.digits limits.depth (skipBlanks t)) :=
    readValue_yields hsource limits.depth (hsource.passing ht (passes_skipBlanks t))
  unfold readAlone at h
  obtain ⟨⟨w, rest⟩, hvalue, h⟩ := bind_eq_ok.mp h
  rw [hvalue] at hyields
  dsimp only at h
  split at h
  · next hnothing =>
    cases h
    have hleft := hsource.passing hyields.2 (passes_skipBlanks rest)
    rw [hnothing] at hleft
    exact ⟨hyields.1, hleft⟩
  · cases h

/-- A value that is read with blanks around it is formed. -/
theorem formed_of_readAlone {limits : Limits} (ht : S t) (h : readAlone limits t = .ok v) :
    Formed N limits.digits limits.depth v :=
  (readAlone_yields hsource ht h).1

end

/-- A formed value in whose strings no halves of a pair stand side by side fits. -/
theorem Formed.fits (h : Formed Text.IsUnpaired limit depth v) : Fits limit depth v := by
  induction h with
  | null => exact ⟨.null, rfl⟩
  | bool b => exact ⟨.bool b, rfl⟩
  | int h => exact ⟨.int h, rfl⟩
  | float h => exact ⟨.float h, rfl⟩
  | str h => exact fits_str h
  | arr _ ih => exact fits_arr ih
  | obj names kind _ ih => exact fits_obj ⟨names, kind, ih⟩

/-- A document that is read has no mark in front. -/
theorem readAlone_of_read {limits : Limits} (h : Json.read limits t = .ok v) :
    readAlone limits t = .ok v := by
  unfold Json.read at h
  split at h
  · cases h
  · exact h

/-- A value that is read from a document of characters fits the limits. -/
theorem fits_of_read {limits : Limits} {v : Json} (ht : t.isScalar = true)
    (h : Json.read limits t = .ok v) : Fits limits.digits limits.depth v :=
  (formed_of_readAlone source_scalar ht (readAlone_of_read h)).fits

end Json

end Showrunner
