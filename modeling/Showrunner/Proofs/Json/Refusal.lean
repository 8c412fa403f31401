import Mathlib.Data.List.TakeWhile
import Showrunner.Json.Read

/-!
# Documents that are refused for their size

A reader that does not find what the format wants says so at a place of the document. Two refusals
have nothing to do with the format: containers nest too deep, or an integer numeral has too many
digits. They are given for large documents only. A reader leaves an ending of what it is given, so the
containers that are open at some place were opened in the document, each at a place of its own, and a
numeral is a run of digits of the document.
-/

namespace Showrunner

namespace Json

variable {α β : Type}

/-- Recognise the opening of a container. -/
def isOpening : CodePoint → Bool
  | .scalar c => c == '[' || c == '\x7b'
  | .surrogate _ => false

/-- A run of ASCII digits of a length stands in a text. -/
def HasRun (n : Nat) (t : Text) : Prop :=
  ∃ run, run <:+: t ∧ run.length = n ∧ ∀ p ∈ run, Digits.isAscii p.toChar = true

/-- A code point that neither delimits a string nor escapes what follows it. -/
def isPlain (p : CodePoint) : Bool := p != .scalar '"' && p != .scalar '\\'

/-- A text goes on with an ending behind plain code points. -/
def Passes (t rest : Text) : Prop := ∃ plain, t = plain ++ rest ∧ ∀ p ∈ plain, isPlain p = true

/-- A reader leaves an ending of a text, or refuses the text. It refuses it for its size only if more
containers are opened in it than may nest, or it has a longer run of digits than an integer. -/
def Sound (limit : Option Nat) (depth : Nat) (t : Text) : Except Refusal (α × Text) → Prop
  | .ok (_, rest) => rest <:+ t
  | .error (.malformed _ _) => True
  | .error (.tooManyDigits n) => limit.any (· < n) = true ∧ HasRun n t
  | .error (.tooDeep _) => depth < t.countP isOpening

variable {limit : Option Nat} {depth : Nat} {t t' : Text}

/-- A text goes on with itself. -/
theorem Passes.refl (t : Text) : Passes t t := ⟨[], rfl, fun _ h => absurd h List.not_mem_nil⟩

/-- A text goes on with what its endings go on with. -/
theorem Passes.trans {t'' : Text} (h : Passes t t') (h' : Passes t' t'') : Passes t t'' := by
  obtain ⟨first, rfl, hfirst⟩ := h
  obtain ⟨second, rfl, hsecond⟩ := h'
  exact ⟨first ++ second, (List.append_assoc _ _ _).symm, List.forall_mem_append.mpr ⟨hfirst, hsecond⟩⟩

/-- A text goes on behind a plain code point. -/
theorem Passes.cons {p : CodePoint} (h : isPlain p = true) (t : Text) : Passes (p :: t) t :=
  ⟨[p], rfl, fun _ hmem => List.mem_singleton.mp hmem ▸ h⟩

/-- What a text goes on with is an ending of it. -/
theorem Passes.suffix (h : Passes t t') : t' <:+ t := by
  obtain ⟨plain, rfl, -⟩ := h
  exact List.suffix_append plain t'

/-- A run of an ending is a run of the text. -/
theorem HasRun.of_suffix {n : Nat} (h : HasRun n t') (hsuffix : t' <:+ t) : HasRun n t := by
  obtain ⟨run, hrun, hlength, hdigits⟩ := h
  exact ⟨run, hrun.trans hsuffix.isInfix, hlength, hdigits⟩

/-- What a reader may say of an ending it may say of the text. -/
theorem Sound.of_suffix {r : Except Refusal (α × Text)} (h : Sound limit depth t' r)
    (hsuffix : t' <:+ t) : Sound limit depth t r := by
  rcases r with (⟨fault, left⟩ | n | container) | ⟨a, rest⟩
  · trivial
  · exact ⟨h.1, h.2.of_suffix hsuffix⟩
  · exact Nat.lt_of_lt_of_le h hsuffix.sublist.countP_le
  · exact List.IsSuffix.trans h hsuffix

/-- What a reader may say behind an opening it may say with one more container open. -/
theorem Sound.of_opening {r : Except Refusal (α × Text)} {p : CodePoint} (h : Sound limit depth t r)
    (hp : isOpening p = true) : Sound limit (depth + 1) (p :: t) r := by
  rcases r with (⟨fault, left⟩ | n | container) | ⟨a, rest⟩
  · trivial
  · exact ⟨h.1, h.2.of_suffix (List.suffix_cons p t)⟩
  · have hcount : depth < t.countP isOpening := h
    simp only [Sound, List.countP_cons_of_pos hp]
    omega
  · exact List.IsSuffix.trans h (List.suffix_cons p t)

/-- A reader goes on with the ending that another leaves. -/
theorem Sound.bind {r : Except Refusal (α × Text)} {f : α × Text → Except Refusal (β × Text)}
    (h : Sound limit depth t r)
    (hf : ∀ a rest, rest <:+ t → Sound limit depth rest (f (a, rest))) :
    Sound limit depth t (r >>= f) := by
  rcases r with (⟨fault, left⟩ | n | container) | ⟨a, rest⟩
  · trivial
  · exact h
  · exact h
  · exact (hf a rest h).of_suffix h

/-- A blank is plain. -/
theorem isPlain_of_isBlank {p : CodePoint} (h : isBlank p = true) : isPlain p = true := by
  cases p with
  | surrogate n => rfl
  | scalar c =>
    simp only [isBlank, Bool.or_eq_true, beq_iff_eq] at h
    rcases h with ((rfl | rfl) | rfl) | rfl <;> rfl

/-- A text goes on behind blanks. -/
theorem passes_skipBlanks (t : Text) : Passes t (skipBlanks t) :=
  ⟨t.takeWhile isBlank, List.takeWhile_append_dropWhile.symm, fun _ hp =>
    isPlain_of_isBlank (List.mem_takeWhile_imp hp)⟩

/-- Passing over blanks leaves an ending. -/
theorem skipBlanks_suffix (t : Text) : skipBlanks t <:+ t := (passes_skipBlanks t).suffix

/-- What a reader may say behind a code point it may say of the text with it. -/
theorem Sound.of_cons {r : Except Refusal (α × Text)} (h : Sound limit depth t r) (p : CodePoint) :
    Sound limit depth (p :: t) r :=
  h.of_suffix (List.suffix_cons p t)

/-! ## Strings -/

/-- A string is refused for its format only. -/
theorem readChars_sound (opened : Nat) (read : Text) (half : Bool) (t : Text) :
    Sound limit depth t (readChars opened read half t) := by
  fun_induction readChars opened read half t with
  | case1 | case4 | case5 | case7 | case8 | case9 => trivial
  | case2 read half rest => exact List.suffix_cons _ rest
  | case3 read half a b c d n next rest hn p grown ih =>
    exact ih.of_suffix ⟨[.scalar '\\', .scalar 'u', a, b, c, d], rfl⟩
  | case6 read half p rest _ _ c hc ih => exact (ih.of_cons p).of_cons _
  | case10 read half p rest _ _ _ _ _ hp ih => exact ih.of_cons p

/-! ## Numerals -/

/-- An ASCII digit is a character. -/
theorem scalar_of_isAscii {p : CodePoint} (h : Digits.isAscii p.toChar = true) :
    .scalar p.toChar = p := by
  cases p with
  | scalar c => rfl
  | surrogate n => cases h

/-- The opening run of digits consists of digits. -/
theorem isAscii_of_mem_takeWhile {p : CodePoint}
    (h : p ∈ t.takeWhile fun p => Digits.isAscii p.toChar) : Digits.isAscii p.toChar = true :=
  List.mem_takeWhile_imp (p := fun p : CodePoint => Digits.isAscii p.toChar) h

/-- The opening run of digits of a text. -/
theorem ofChars_digitRun (t : Text) :
    Text.ofChars (digitRun t).1 = t.takeWhile fun p => Digits.isAscii p.toChar := by
  have hsame : (t.takeWhile fun p => Digits.isAscii p.toChar).map (CodePoint.scalar ∘ CodePoint.toChar) =
      (t.takeWhile fun p => Digits.isAscii p.toChar).map id :=
    List.map_congr_left fun p hp => scalar_of_isAscii (isAscii_of_mem_takeWhile hp)
  rw [digitRun, Text.ofChars, Text.toChars, List.map_map, hsame, List.map_id]

/-- The opening run of digits and what is behind it make up the text. -/
theorem digitRun_append (t : Text) : Text.ofChars (digitRun t).1 ++ (digitRun t).2 = t := by
  rw [ofChars_digitRun, digitRun]
  exact (List.prefix_iff_eq_append.mp (List.takeWhile_prefix _))

/-- The opening run of digits is a run of the text. -/
theorem hasRun_digitRun (t : Text) : HasRun (digitRun t).1.length t := by
  refine ⟨t.takeWhile fun p => Digits.isAscii p.toChar, (List.takeWhile_prefix _).isInfix, ?_, ?_⟩
  · rw [← ofChars_digitRun, Text.ofChars, List.length_map]
  · exact fun p hp => isAscii_of_mem_takeWhile hp

/-- A digit is plain. -/
theorem isPlain_of_isAscii {p : CodePoint} (h : Digits.isAscii p.toChar = true) : isPlain p = true := by
  have hquote : p ≠ .scalar '"' := by
    rintro rfl
    cases h
  have hescape : p ≠ .scalar '\\' := by
    rintro rfl
    cases h
  simp [isPlain, hquote, hescape]

/-- A text goes on behind its opening run of digits. -/
theorem passes_digitRun (t : Text) : Passes t (digitRun t).2 := by
  refine ⟨Text.ofChars (digitRun t).1, (digitRun_append t).symm, fun p hp => isPlain_of_isAscii ?_⟩
  rw [ofChars_digitRun] at hp
  exact isAscii_of_mem_takeWhile hp

/-- A text goes on behind a fraction. -/
theorem passes_readFraction {found : List Char × Text} (h : readFraction t = some found) :
    Passes t found.2 := by
  unfold readFraction at h
  split at h
  · next behind =>
    simp only [Option.ite_none_left_eq_some, Option.some.injEq] at h
    obtain ⟨-, rfl⟩ := h
    exact (Passes.cons rfl behind).trans (passes_digitRun behind)
  · cases h

/-- A text goes on behind an exponent. -/
theorem passes_readExponent {found : Int × Text} (h : readExponent t = some found) :
    Passes t found.2 := by
  unfold readExponent at h
  split at h
  · next c behind =>
    split at h
    · next hletter =>
      have hplain : isPlain (.scalar c) = true := by
        simp only [Bool.or_eq_true, beq_iff_eq] at hletter
        rcases hletter with rfl | rfl <;> rfl
      have hsigned : ∀ {rest : Text}, Passes behind rest → Passes (.scalar c :: behind) (digitRun rest).2 :=
        fun hrest => ((Passes.cons hplain behind).trans hrest).trans (passes_digitRun _)
      simp only [Option.ite_none_left_eq_some, Option.some.injEq] at h
      obtain ⟨-, rfl⟩ := h
      split
      · exact hsigned (.cons rfl _)
      · exact hsigned (.cons rfl _)
      · exact hsigned (.refl _)
    · cases h
  · cases h

/-- A text goes on with what is left behind a fraction, if there is one, and behind an exponent, if there is
one. -/
theorem passes_behind_whole (t : Text) :
    Passes t ((readExponent ((readFraction t).getD ([], t)).2).getD (0, ((readFraction t).getD ([], t)).2)).2 := by
  have hfraction : Passes t ((readFraction t).getD ([], t)).2 := by
    cases hread : readFraction t with
    | none => exact .refl t
    | some found => exact passes_readFraction hread
  refine hfraction.trans ?_
  cases hread : readExponent ((readFraction t).getD ([], t)).2 with
  | none => exact .refl _
  | some found => exact passes_readExponent hread

/-- A numeral is refused for its size only if its integer part has more digits than an integer. -/
theorem readBehindWhole_sound (negative : Bool) {whole : List Char} {rest : Text}
    (hwhole : HasRun whole.length t) (hrest : rest <:+ t) :
    Sound limit depth t (readBehindWhole limit negative whole rest) := by
  have hending := (passes_behind_whole rest).suffix.trans hrest
  rw [readBehindWhole]
  dsimp only
  split
  · split
    · next hlong => exact ⟨hlong, hwhole⟩
    · exact hending
  · exact hending

/-- A numeral is refused for its size only if it has a longer run of digits than an integer. -/
theorem readNumeral_sound (negative : Bool) {r : Reading Json}
    (h : readNumeral limit negative t = some r) : Sound limit depth t r := by
  have happend := digitRun_append t
  have hrun := hasRun_digitRun t
  unfold readNumeral at h
  split at h
  · cases h
  · next more rest hsplit =>
    rw [hsplit] at happend
    obtain rfl := Option.some.inj h
    refine readBehindWhole_sound negative ⟨[.scalar '0'], ?_, rfl, ?_⟩ ?_
    · exact ⟨[], Text.ofChars more ++ rest, happend⟩
    · exact fun p hp => List.mem_singleton.mp hp ▸ by decide
    · exact ⟨[.scalar '0'], happend⟩
  · next run rest _ _ hsplit =>
    rw [hsplit] at happend hrun
    obtain rfl := Option.some.inj h
    exact readBehindWhole_sound negative hrun ⟨_, happend⟩

/-- An opening and what is behind it make up the text. -/
theorem append_of_dropOpening? {opening rest : Text} (h : Text.dropOpening? opening t = some rest) :
    t = opening ++ rest := by
  induction opening generalizing t with
  | nil => exact Option.some.inj h
  | cons a more ih =>
    cases t with
    | nil => cases h
    | cons b t =>
      rw [Text.dropOpening?] at h
      split at h
      · next hsame => rw [ih h, hsame, List.cons_append]
      · cases h

/-- The names of values are plain. -/
theorem isPlain_constants : ∀ entry ∈ constants, ∀ p ∈ entry.1, isPlain p = true := by
  decide

/-- A text goes on behind the name of a value. -/
theorem passes_constant {entry : Text × Json} {rest : Text} (hentry : entry ∈ constants)
    (h : Text.dropOpening? entry.1 t = some rest) : Passes t rest :=
  ⟨entry.1, append_of_dropOpening? h, isPlain_constants entry hentry⟩

/-- A numeral with its sign is refused for its size only if it has a longer run of digits than an
integer. -/
theorem readSigned_sound {r : Reading Json} (h : readSigned limit t = some r) :
    Sound limit depth t r := by
  unfold readSigned at h
  split at h
  · exact (readNumeral_sound true h).of_cons _
  · exact readNumeral_sound false h

/-- A value without parts is refused for its size only if it has a longer run of digits than an
integer. -/
theorem readAtom_sound (t : Text) : Sound limit depth t (readAtom limit t) := by
  unfold readAtom
  split
  · next found hfound =>
    obtain ⟨⟨name, v⟩, hentry, hname⟩ := List.exists_of_findSome?_eq_some hfound
    obtain ⟨rest, hrest, rfl⟩ := Option.map_eq_some_iff.mp hname
    exact (passes_constant hentry hrest).suffix
  · cases hread : readSigned limit t with
    | none => trivial
    | some r => exact readSigned_sound hread

/-! ## Containers -/

/-- The items of an array are refused for their size only if one of them is. -/
theorem readItems_sound {item : Text → Reading Json} (hitem : ∀ t, Sound limit depth t (item t))
    (fuel : Nat) (read : List Json) (t : Text) :
    Sound limit depth t (readItems item fuel read t) := by
  induction fuel generalizing read t with
  | zero => trivial
  | succ fuel ih =>
    rw [readItems]
    refine (hitem t).bind fun v rest _ => Sound.of_suffix ?_ (skipBlanks_suffix rest)
    dsimp only
    split
    · next behind hend =>
      rw [hend]
      exact List.suffix_cons _ behind
    · next behind hcomma =>
      rw [hcomma]
      exact ((ih _ _).of_suffix (skipBlanks_suffix behind)).of_cons _
    · trivial

/-- The fields of an object are refused for their size only if the value of one of them is. -/
theorem readFields_sound {item : Text → Reading Json} (hitem : ∀ t, Sound limit depth t (item t))
    (fuel : Nat) (read : Fields) (t : Text) :
    Sound limit depth t (readFields item fuel read t) := by
  induction fuel generalizing read t with
  | zero => trivial
  | succ fuel ih =>
    unfold readFields
    split
    · next behind =>
      refine Sound.of_cons ?_ _
      refine (readChars_sound _ _ _ _).bind fun name rest _ =>
        Sound.of_suffix ?_ (skipBlanks_suffix rest)
      dsimp only
      split
      · next value hcolon =>
        rw [hcolon]
        refine Sound.of_cons ?_ _
        refine Sound.of_suffix ?_ (skipBlanks_suffix value)
        refine (hitem _).bind fun v rest _ => Sound.of_suffix ?_ (skipBlanks_suffix rest)
        dsimp only
        split
        · next behind hend =>
          rw [hend]
          exact List.suffix_cons _ behind
        · next behind hcomma =>
          rw [hcomma]
          exact ((ih _ _).of_suffix (skipBlanks_suffix behind)).of_cons _
        · trivial
      · trivial
    · trivial

/-- A value is refused for its size only if more containers are opened in it than may nest, or it has a
longer run of digits than an integer. -/
theorem readValue_sound (depth : Nat) (t : Text) : Sound limit depth t (readValue limit depth t) := by
  induction depth using Nat.strongRecOn generalizing t with
  | ind depth ih =>
    fun_cases readValue limit depth t with
    | case1 =>
      exact ((readChars_sound _ _ _ _).of_cons _).bind fun read rest' _ => List.suffix_refl rest'
    | case2 rest | case3 rest => exact List.countP_pos_iff.mpr ⟨_, List.mem_cons_self, rfl⟩
    | case4 depth rest behind hend | case6 depth rest behind hend =>
      have hsuffix := skipBlanks_suffix rest
      rw [hend] at hsuffix
      exact ((List.suffix_cons _ behind).trans hsuffix).trans (List.suffix_cons _ rest)
    | case5 depth rest _ =>
      have hitems := readItems_sound (ih depth (Nat.lt_succ_self depth))
        ((skipBlanks rest).length + 1) [] (skipBlanks rest)
      exact (Sound.of_opening (hitems.of_suffix (skipBlanks_suffix rest)) rfl).bind
        fun items rest' _ => List.suffix_refl rest'
    | case7 depth rest _ =>
      have hfields := readFields_sound (ih depth (Nat.lt_succ_self depth))
        ((skipBlanks rest).length + 1) [] (skipBlanks rest)
      exact (Sound.of_opening (hfields.of_suffix (skipBlanks_suffix rest)) rfl).bind
        fun fields rest' _ => List.suffix_refl rest'
    | case8 => exact readAtom_sound t

/-- A document from outside is refused for its size only if it has a run of more than 4300 digits, or
opens more than 990 containers. -/
theorem size_of_refused {r : Refusal} (h : read .outside t = .error r) :
    (∃ fault left, r = .malformed fault left) ∨
      (∃ n, r = .tooManyDigits n ∧ Integer.digitLimit < n ∧ HasRun n t) ∨
      ∃ container, r = .tooDeep container ∧ 990 < t.countP isOpening := by
  have hsound := (@readValue_sound Limits.outside.digits Limits.outside.depth
    (skipBlanks t)).of_suffix (skipBlanks_suffix t)
  unfold read at h
  split at h
  · cases h
    exact .inl ⟨_, _, rfl⟩
  · unfold readAlone at h
    rcases hvalue : readValue Limits.outside.digits Limits.outside.depth (skipBlanks t) with
      r' | ⟨v, rest⟩
    · rw [hvalue] at h hsound
      cases h
      rcases r with ⟨fault, left⟩ | n | container
      · exact .inl ⟨fault, left, rfl⟩
      · exact .inr (.inl ⟨n, rfl, of_decide_eq_true hsound.1, hsound.2⟩)
      · exact .inr (.inr ⟨container, rfl, hsound⟩)
    · rw [hvalue] at h
      simp only [bind, Except.bind] at h
      split at h
      · cases h
      · cases h
        exact .inl ⟨_, _, rfl⟩

/-! ## Documents that are too large -/

/-- Digits with no digit behind them are the opening run of a text. -/
theorem digitRun_ofChars_append {digits : List Char} {rest : Text}
    (hdigits : ∀ d ∈ digits, Digits.isAscii d = true)
    (hrest : ∀ p ∈ rest.head?, Digits.isAscii p.toChar = false) :
    digitRun (Text.ofChars digits ++ rest) = (digits, rest) := by
  have hnone : rest.takeWhile (fun p => Digits.isAscii p.toChar) = [] := by
    cases rest with
    | nil => rfl
    | cons p more => exact List.takeWhile_cons_of_neg (Bool.eq_false_iff.mp (hrest p rfl))
  have hrun : (Text.ofChars digits ++ rest).takeWhile (fun p => Digits.isAscii p.toChar) =
      Text.ofChars digits := by
    rw [List.takeWhile_append_of_pos, hnone, List.append_nil]
    intro p hp
    obtain ⟨d, hd, rfl⟩ := List.mem_map.mp hp
    exact hdigits d hd
  have hchars : Text.toChars (Text.ofChars digits) = digits := by
    rw [Text.toChars, Text.ofChars, List.map_map]
    exact List.map_id digits
  rw [digitRun, hrun, List.drop_left, hchars]

/-- A digit is no other character. -/
theorem ne_of_isAscii {c d : Char} (hc : Digits.isAscii c = true) (hd : Digits.isAscii d = false) :
    c ≠ d := by
  rintro rfl
  rw [hc] at hd
  cases hd

/-- No value with a name of its own begins with a digit. -/
theorem constants_not_digit : ∀ entry ∈ constants, ∃ d more, entry.1 = .scalar d :: more ∧
    Digits.isAscii d = false := by
  intro entry hentry
  simp only [constants, List.mem_cons, List.not_mem_nil, or_false] at hentry
  rcases hentry with rfl | rfl | rfl | rfl | rfl | rfl <;> exact ⟨_, _, rfl, by decide⟩

/-- What begins with no name is read as a numeral with its sign. -/
theorem readAtom_of_unnamed (h : ∀ entry ∈ constants, Text.dropOpening? entry.1 t = none) :
    readAtom limit t = (readSigned limit t).getD (.error (.malformed .value t.length)) := by
  unfold readAtom
  rw [List.findSome?_eq_none_iff.mpr]
  rintro ⟨name, v⟩ hentry
  exact congrArg (Option.map _) (h (name, v) hentry)

/-- What begins with a digit is read as a numeral. -/
theorem readValue_of_digit {c : Char} (hc : Digits.isAscii c = true) (rest : Text) :
    readValue limit depth (.scalar c :: rest) =
      (readNumeral limit false (.scalar c :: rest)).getD
        (.error (.malformed .value (rest.length + 1))) := by
  have hne : ∀ d, Digits.isAscii d = false → CodePoint.scalar c ≠ .scalar d := fun d hd heq =>
    ne_of_isAscii hc hd (CodePoint.scalar.inj heq)
  have hatom : readValue limit depth (.scalar c :: rest) = readAtom limit (.scalar c :: rest) := by
    have hquote := hne '"' (by decide)
    have harray := hne '[' (by decide)
    have hobject := hne '\x7b' (by decide)
    unfold readValue
    split <;> simp_all
  have hunnamed : ∀ entry ∈ constants, Text.dropOpening? entry.1 (.scalar c :: rest) = none := by
    intro entry hentry
    obtain ⟨d, more, hname, hd⟩ := constants_not_digit entry hentry
    rw [hname, Text.dropOpening?, if_neg (Ne.symm (hne d hd))]
  have hsigned : readSigned limit (.scalar c :: rest) = readNumeral limit false (.scalar c :: rest) := by
    unfold readSigned
    split
    · next rest' hsame => exact absurd (List.cons.inj hsame).1 (hne '-' (by decide))
    · rfl
  rw [hatom, readAtom_of_unnamed hunnamed, hsigned]
  rfl

/-- A run of digits is the integer part of a numeral, unless more digits follow a zero. -/
theorem readNumeral_of_run {c : Char} {more : List Char} {rest : Text}
    (hrun : digitRun t = (c :: more, rest)) (hzero : c = '0' → more = []) (negative : Bool) :
    readNumeral limit negative t = some (readBehindWhole limit negative (c :: more) rest) := by
  unfold readNumeral
  rw [hrun]
  split
  · next hnone => cases hnone
  · next more' rest' hsame =>
    obtain ⟨hrun', rfl⟩ := Prod.mk.inj hsame
    obtain ⟨rfl, rfl⟩ := List.cons.inj hrun'
    rw [hzero rfl]
    rfl
  · next run' rest' _ _ hsame =>
    obtain ⟨rfl, rfl⟩ := Prod.mk.inj hsame
    rfl

/-- A document that is one integer of too many digits is refused. -/
theorem read_of_long {c : Char} {digits : List Char} (hfirst : c ≠ '0')
    (hdigits : ∀ d ∈ c :: digits, Digits.isAscii d = true)
    (hlong : Integer.digitLimit < (c :: digits).length) :
    read .outside (Text.ofChars (c :: digits)) = .error (.tooManyDigits (c :: digits).length) := by
  have hc := hdigits c List.mem_cons_self
  have hnumeral : readNumeral Limits.outside.digits false (Text.ofChars (c :: digits)) =
      some (.error (.tooManyDigits (c :: digits).length)) := by
    have hlimit : Limits.outside.digits.any (· < (c :: digits).length) = true :=
      decide_eq_true hlong
    have hrun : digitRun (Text.ofChars (c :: digits)) = (c :: digits, []) := by
      rw [← List.append_nil (Text.ofChars (c :: digits))]
      exact digitRun_ofChars_append hdigits fun p hp => nomatch hp
    rw [readNumeral_of_run hrun fun hzero => absurd hzero hfirst]
    exact congrArg some (if_pos hlimit)
  have hbegins : Text.ofChars (c :: digits) = .scalar c :: Text.ofChars digits := rfl
  rw [hbegins] at hnumeral ⊢
  have hblank : isBlank (.scalar c) = false := by
    have hspace := ne_of_isAscii hc (d := ' ') (by decide)
    have htab := ne_of_isAscii hc (d := '\t') (by decide)
    have hline := ne_of_isAscii hc (d := '\n') (by decide)
    have hreturn := ne_of_isAscii hc (d := '\r') (by decide)
    simp [isBlank, hspace, htab, hline, hreturn]
  have hblanks : skipBlanks (.scalar c :: Text.ofChars digits) = .scalar c :: Text.ofChars digits := by
    rw [skipBlanks, List.dropWhile_cons_of_neg (Bool.eq_false_iff.mp hblank)]
  have hmark := ne_of_isAscii hc (d := '\uFEFF') (by decide)
  unfold read
  split
  · next rest hsame => exact absurd (CodePoint.scalar.inj (List.cons.inj hsame).1) hmark
  · rw [readAlone, hblanks, readValue_of_digit hc, hnumeral]
    rfl

/-- No blanks stand before openings. -/
theorem skipBlanks_openings (n : Nat) :
    skipBlanks (List.replicate n (.scalar '[')) = List.replicate n (.scalar '[') := by
  cases n with
  | zero => rfl
  | succ n => rfl

/-- Behind more openings than may nest nothing is read. -/
theorem readValue_of_openings {n : Nat} (h : depth < n) :
    readValue limit depth (List.replicate n (.scalar '[')) = .error (.tooDeep .array) := by
  induction depth generalizing n with
  | zero =>
    obtain ⟨n, rfl⟩ := Nat.exists_eq_succ_of_ne_zero (Nat.ne_of_gt h)
    rfl
  | succ depth ih =>
    obtain ⟨n, rfl⟩ := Nat.exists_eq_succ_of_ne_zero (Nat.ne_zero_of_lt h)
    have hitems : ∀ fuel, readItems (readValue limit depth) (fuel + 1) []
        (List.replicate n (.scalar '[')) = .error (.tooDeep .array) := by
      intro fuel
      rw [readItems, ih (Nat.lt_of_succ_lt_succ h)]
      rfl
    rw [List.replicate_succ, readValue, skipBlanks_openings]
    split
    · next rest hend =>
      have hsame := List.eq_of_mem_replicate (hend ▸ List.mem_cons_self)
      exact absurd (CodePoint.scalar.inj hsame) (by decide)
    · rw [hitems]
      rfl

/-- A document that opens more arrays than may nest is refused, whether it closes them or not. -/
theorem read_of_openings {n : Nat} (h : Limits.outside.depth < n) :
    read .outside (List.replicate n (.scalar '[')) = .error (.tooDeep .array) := by
  have hmark : read .outside (List.replicate n (.scalar '[')) =
      readAlone .outside (List.replicate n (.scalar '[')) := by
    cases n with
    | zero => rfl
    | succ n => rfl
  rw [hmark, readAlone, skipBlanks_openings, readValue_of_openings h]
  rfl

end Json

end Showrunner
