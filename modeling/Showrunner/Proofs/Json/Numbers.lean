import Showrunner.Json.Write
import Showrunner.Proofs.Binary64.Shortest
import Showrunner.Proofs.Json.Refusal
import Showrunner.Proofs.Text.Numeral

/-!
# Numbers in documents

A number is written as one numeral, and what follows a value in a document does not go on with a numeral.
An integer is read from its digits. A decimal is written without the zeros at the end of its digits, with
its point in place or with an exponent, and either way the digits and the exponent that are read from it
make up the decimal again, so that the number is read that the decimal rounds to.
-/

namespace Showrunner

namespace Json

/-- A text does not go on with a numeral. -/
def EndsNumeral (rest : Text) : Prop :=
  ∀ p ∈ rest.head?, Digits.isAscii p.toChar = false ∧ p ≠ .scalar '.' ∧ p ≠ .scalar 'e' ∧
    p ≠ .scalar 'E'

variable {limit : Option Nat} {depth : Nat} {rest : Text}

/-- A numeral ends where the text does. -/
theorem endsNumeral_nil : EndsNumeral [] := by
  intro p hp
  cases hp

/-- A numeral ends at any of the characters that follow a value. -/
theorem endsNumeral_cons {c : Char} (h : c ∈ [',', ']', '\x7d']) (rest : Text) :
    EndsNumeral (.scalar c :: rest) := by
  intro p hp
  obtain rfl := Option.some.inj hp
  simp only [List.mem_cons, List.not_mem_nil, or_false] at h
  rcases h with rfl | rfl | rfl <;> decide

/-- There is no fraction where a numeral ends. -/
theorem readFraction_eq_none (h : EndsNumeral rest) : readFraction rest = none := by
  unfold readFraction
  split
  · next behind => exact absurd rfl (h _ rfl).2.1
  · rfl

/-- There is no exponent where a numeral ends. -/
theorem readExponent_eq_none (h : EndsNumeral rest) : readExponent rest = none := by
  unfold readExponent
  split
  · next c behind =>
    obtain ⟨-, -, hlower, hupper⟩ := h _ rfl
    have hneither : ¬(c == 'e' || c == 'E') = true := by
      rw [Bool.or_eq_true, beq_iff_eq, beq_iff_eq]
      rintro (rfl | rfl)
      · exact hlower rfl
      · exact hupper rfl
    exact if_neg hneither
  · rfl

/-- A point with digits behind it is a fraction. -/
theorem readFraction_digits {behind : List Char} (hne : behind ≠ [])
    (hdigits : ∀ d ∈ behind, Digits.isAscii d = true)
    (hrest : ∀ p ∈ rest.head?, Digits.isAscii p.toChar = false) :
    readFraction (.scalar '.' :: (Text.ofChars behind ++ rest)) = some (behind, rest) := by
  rw [readFraction, digitRun_ofChars_append hdigits hrest]
  exact if_neg fun hempty => hne (List.isEmpty_iff.mp hempty)

/-- A letter, a sign and digits are an exponent. -/
theorem readExponent_digits (negative : Bool) {size : List Char} (hne : size ≠ [])
    (hdigits : ∀ d ∈ size, Digits.isAscii d = true) (hrest : EndsNumeral rest) :
    readExponent (.scalar 'e' :: .scalar (if negative then '-' else '+') ::
      (Text.ofChars size ++ rest)) =
        some (if negative then -(Digits.natOf size : Int) else Digits.natOf size, rest) := by
  have hrun := digitRun_ofChars_append hdigits fun p hp => (hrest p hp).1
  have hsome : ¬size.isEmpty = true := fun hempty => hne (List.isEmpty_iff.mp hempty)
  cases negative with
  | false => simp [readExponent, hrun, hsome]
  | true => simp [readExponent, hrun, hsome]

/-! ## Integers -/

/-- The digits of a natural number are read as the number. -/
theorem readNumeral_toDigits (negative : Bool) {n : Nat}
    (hlimit : ∀ most ∈ limit, (Nat.toDigits 10 n).length ≤ most) (hrest : EndsNumeral rest) :
    readNumeral limit negative (Text.ofChars (Nat.toDigits 10 n) ++ rest) =
      some (.ok (.int (if negative then -(n : Int) else n), rest)) := by
  have hshort : ¬limit.any (· < (Nat.toDigits 10 n).length) = true := by
    cases limit with
    | none => exact Bool.false_ne_true
    | some most => simpa using hlimit most rfl
  have hrun : digitRun (Text.ofChars (Nat.toDigits 10 n) ++ rest) = (Nat.toDigits 10 n, rest) :=
    digitRun_ofChars_append (fun d hd => Digits.isAscii_of_mem_toDigits hd) fun p hp => (hrest p hp).1
  have hwhole : readBehindWhole limit negative (Nat.toDigits 10 n) rest =
      .ok (.int (if negative then -(n : Int) else n), rest) := by
    rw [readBehindWhole]
    simp only [readFraction_eq_none hrest, readExponent_eq_none hrest, Option.getD_none,
      Option.isNone_none, Bool.and_self, if_true, if_neg hshort, Digits.natOf_toDigits]
  rw [← hwhole]
  obtain ⟨c, more, hdigits, hc⟩ := Digits.exists_toDigits_eq_cons n
  rw [hdigits] at hrun ⊢
  exact readNumeral_of_run hrun hc negative

/-! ## Decimals -/

/-- The digits of a number above zero without the zeros at their end. -/
theorem exists_stripped {n : Nat} (h : 0 < n) :
    ∃ c more zeros, c ≠ '0' ∧ Nat.toDigits 10 n = (c :: more) ++ List.replicate zeros '0' ∧
      Binary64.significantDigits n = c :: more := by
  rw [Binary64.significantDigits, Nat.toList_repr]
  generalize hdigits : Nat.toDigits 10 n = digits
  have hsplit : digits = (digits.reverse.dropWhile (· == '0')).reverse ++
      (digits.reverse.takeWhile (· == '0')).reverse := by
    rw [← List.reverse_append, List.takeWhile_append_dropWhile, List.reverse_reverse]
  have hzeros : (digits.reverse.takeWhile (· == '0')).reverse =
      List.replicate (digits.reverse.takeWhile (· == '0')).length '0' := by
    rw [List.eq_replicate_iff]
    refine ⟨List.length_reverse, fun c hc => ?_⟩
    exact beq_iff_eq.mp (List.mem_takeWhile_imp (p := fun c => c == '0') (List.mem_reverse.mp hc))
  rw [hzeros] at hsplit
  generalize (digits.reverse.dropWhile (· == '0')).reverse = kept at hsplit
  generalize (digits.reverse.takeWhile (· == '0')).length = zeros at hsplit
  cases kept with
  | nil =>
    -- a number whose digits are zeros is zero
    have hspells := Digits.natOf_toDigits n
    rw [hdigits, hsplit, List.nil_append, Digits.natOf_zeros] at hspells
    omega
  | cons c more =>
    refine ⟨c, more, zeros, ?_, hsplit, rfl⟩
    rintro rfl
    obtain ⟨c', rest', hcons, hzero⟩ := Digits.exists_toDigits_eq_cons n
    rw [hdigits, hsplit, List.cons_append] at hcons
    obtain ⟨rfl, hrest'⟩ := List.cons.inj hcons
    have hspells := Digits.natOf_toDigits n
    rw [hdigits, hsplit, List.cons_append, hrest', hzero rfl] at hspells
    have hnone : Digits.natOf ['0'] = 0 := rfl
    omega

/-- A run of digits ends at a character that is none. -/
theorem digitRun_ofChars_cons {digits : List Char} (hdigits : ∀ d ∈ digits, Digits.isAscii d = true)
    {c : Char} (hc : Digits.isAscii c = false) (t : Text) :
    digitRun (Text.ofChars digits ++ .scalar c :: t) = (digits, .scalar c :: t) :=
  digitRun_ofChars_append hdigits fun p hp => by
    obtain rfl := Option.some.inj hp
    exact hc

/-- Digits with a point between them are read as a decimal. -/
theorem readNumeral_point (negative : Bool) {c : Char} {more behind : List Char}
    (hwhole : ∀ d ∈ c :: more, Digits.isAscii d = true) (hzero : c = '0' → more = [])
    (hne : behind ≠ []) (hbehind : ∀ d ∈ behind, Digits.isAscii d = true)
    (hrest : EndsNumeral rest) :
    readNumeral limit negative (Text.ofChars (c :: more ++ '.' :: behind) ++ rest) =
      some (.ok (.float (Binary64.ofDecimal negative (Digits.natOf (c :: more ++ behind))
        (-behind.length)), rest)) := by
  have hsplit : Text.ofChars (c :: more ++ '.' :: behind) ++ rest =
      Text.ofChars (c :: more) ++ .scalar '.' :: (Text.ofChars behind ++ rest) := by
    simp [Text.ofChars]
  have hrun := digitRun_ofChars_cons hwhole (by decide : Digits.isAscii '.' = false)
    (Text.ofChars behind ++ rest)
  rw [hsplit, readNumeral_of_run hrun hzero, readBehindWhole]
  simp [readFraction_digits hne hbehind fun p hp => (hrest p hp).1, readExponent_eq_none hrest]

/-- Digits with an exponent, and with a point behind the first if there are more, are read as a
decimal. -/
theorem readNumeral_exponent (negative : Bool) {c : Char} {more size : List Char} (below : Bool)
    (hmantissa : ∀ d ∈ c :: more, Digits.isAscii d = true) (hne : size ≠ [])
    (hsize : ∀ d ∈ size, Digits.isAscii d = true) (hrest : EndsNumeral rest) :
    readNumeral limit negative (Text.ofChars ((if more = [] then [c] else c :: '.' :: more) ++
      'e' :: (if below then '-' else '+') :: size) ++ rest) =
      some (.ok (.float (Binary64.ofDecimal negative (Digits.natOf (c :: more))
        ((if below then -(Digits.natOf size : Int) else Digits.natOf size) - more.length)), rest)) := by
  obtain ⟨hc, hmore⟩ := List.forall_mem_cons.mp hmantissa
  have hone : ∀ d ∈ [c], Digits.isAscii d = true := fun d hd => List.mem_singleton.mp hd ▸ hc
  have hexponent := readExponent_digits below hne hsize hrest
  generalize htail : Text.ofChars size ++ rest = tail at hexponent
  by_cases hnone : more = []
  · subst hnone
    have hsplit : Text.ofChars ((if ([] : List Char) = [] then [c] else [c, '.']) ++
        'e' :: (if below then '-' else '+') :: size) ++ rest =
          Text.ofChars [c] ++ .scalar 'e' :: .scalar (if below then '-' else '+') :: tail := by
      simp [Text.ofChars, ← htail]
    have hrun := digitRun_ofChars_cons hone (by decide : Digits.isAscii 'e' = false)
      (.scalar (if below then '-' else '+') :: tail)
    rw [hsplit, readNumeral_of_run hrun fun _ => rfl, readBehindWhole]
    simp [readFraction, hexponent]
  · have hsplit : Text.ofChars ((if more = [] then [c] else c :: '.' :: more) ++
        'e' :: (if below then '-' else '+') :: size) ++ rest = Text.ofChars [c] ++ .scalar '.' ::
          (Text.ofChars more ++ .scalar 'e' :: .scalar (if below then '-' else '+') :: tail) := by
      simp [Text.ofChars, ← htail, hnone]
    have hrun := digitRun_ofChars_cons hone (by decide : Digits.isAscii '.' = false)
      (Text.ofChars more ++ .scalar 'e' :: .scalar (if below then '-' else '+') :: tail)
    have hfraction := readFraction_digits hnone hmore
      (fun p hp => by
        obtain rfl := Option.some.inj hp
        decide : ∀ p ∈ (CodePoint.scalar 'e' :: .scalar (if below then '-' else '+') ::
          tail : Text).head?, Digits.isAscii p.toChar = false)
    rw [hsplit, readNumeral_of_run hrun fun _ => rfl, readBehindWhole]
    simp [hfraction, hexponent]

/-- Some characters are read as a decimal: they begin with a digit, and in front of a text that does
not go on with a numeral they are read as a number that rounds it. -/
def SpellsDecimal (cs : List Char) (value : ℚ) : Prop :=
  (∃ c more, cs = c :: more ∧ Digits.isAscii c = true) ∧
    ∃ (digits : ℕ) (place : ℤ), (digits : ℚ) * 10 ^ place = value ∧
      ∀ limit negative rest, EndsNumeral rest →
        readNumeral limit negative (Text.ofChars cs ++ rest) =
          some (.ok (.float (Binary64.ofDecimal negative digits place), rest))

/-- Digits with a point between them spell a decimal. -/
theorem spellsDecimal_point {c : Char} {more behind : List Char}
    (hwhole : ∀ d ∈ c :: more, Digits.isAscii d = true) (hzero : c = '0' → more = [])
    (hne : behind ≠ []) (hbehind : ∀ d ∈ behind, Digits.isAscii d = true) :
    SpellsDecimal (c :: more ++ '.' :: behind)
      (Digits.natOf (c :: more ++ behind) * 10 ^ (-(behind.length : ℤ))) :=
  ⟨⟨c, _, rfl, hwhole c List.mem_cons_self⟩, _, _, rfl, fun _ negative _ hrest =>
    readNumeral_point negative hwhole hzero hne hbehind hrest⟩

/-- Digits with an exponent spell a decimal. -/
theorem spellsDecimal_exponent {c : Char} {more size : List Char} (below : Bool)
    (hdigits : ∀ d ∈ c :: more, Digits.isAscii d = true) (hne : size ≠ [])
    (hsize : ∀ d ∈ size, Digits.isAscii d = true) :
    SpellsDecimal ((if more = [] then [c] else c :: '.' :: more) ++
        'e' :: (if below then '-' else '+') :: size)
      (Digits.natOf (c :: more) *
        10 ^ ((if below then -(Digits.natOf size : ℤ) else Digits.natOf size) - more.length)) := by
  refine ⟨⟨c, ?_⟩, _, _, rfl, fun _ negative _ hrest =>
    readNumeral_exponent negative below hdigits hne hsize hrest⟩
  have hc := hdigits c List.mem_cons_self
  by_cases hmore : more = []
  · exact ⟨_, by rw [if_pos hmore]; rfl, hc⟩
  · exact ⟨_, by rw [if_neg hmore]; rfl, hc⟩

/-- Where the point stands within digits or behind them, with a zero where there would be none behind
it. -/
theorem natOf_around_point (digits : List Char) (whole : ℕ) :
    let padded := digits ++ List.replicate (whole - digits.length) '0'
    let behind := if (padded.drop whole).isEmpty then ['0'] else padded.drop whole
    (Digits.natOf (padded.take whole ++ behind) : ℚ) * 10 ^ (-(behind.length : ℤ)) =
      Digits.natOf digits * 10 ^ ((whole : ℤ) - digits.length) := by
  intro padded behind
  have hten : (10 : ℚ) ≠ 0 := by norm_num
  by_cases hlength : digits.length ≤ whole
  · have hpadded : padded.length ≤ whole := by
      rw [List.length_append, List.length_replicate]
      omega
    have hbehind : behind = ['0'] := if_pos (List.isEmpty_iff.mpr (List.drop_eq_nil_iff.mpr hpadded))
    have hzero : Digits.natOf ['0'] = 0 := rfl
    rw [hbehind, List.take_of_length_le hpadded, Digits.natOf_append, Digits.natOf_append, hzero,
      Digits.natOf_zeros, List.length_replicate, List.length_singleton,
      ← Nat.cast_sub hlength, zpow_natCast]
    push_cast
    rw [zpow_neg_one]
    field_simp
    ring
  · have hpadded : padded = digits := by
      change digits ++ List.replicate (whole - digits.length) '0' = digits
      rw [Nat.sub_eq_zero_of_le (Nat.le_of_not_le hlength), List.replicate_zero, List.append_nil]
    have hsome : ¬(padded.drop whole).isEmpty = true := by
      rw [List.isEmpty_iff, List.drop_eq_nil_iff, hpadded]
      exact hlength
    have hbehind : behind = digits.drop whole := by
      rw [← hpadded]
      exact if_neg hsome
    rw [hbehind, hpadded, List.take_append_drop, List.length_drop]
    congr 2
    omega

/-- Digits with their point in place spell a decimal. -/
theorem spellsDecimal_writePositional {c : Char} {more : List Char} (hc : c ≠ '0')
    (hdigits : ∀ d ∈ c :: more, Digits.isAscii d = true) (point : ℤ) :
    SpellsDecimal (Binary64.writePositional (c :: more) point)
      (Digits.natOf (c :: more) * 10 ^ (point - (c :: more).length)) := by
  have hzeros : ∀ count, ∀ d ∈ List.replicate count '0', Digits.isAscii d = true := fun count d hd =>
    List.eq_of_mem_replicate hd ▸ rfl
  unfold Binary64.writePositional
  split
  · next hbelow =>
    have hbehind : ∀ d ∈ List.replicate (-point).toNat '0' ++ c :: more, Digits.isAscii d = true :=
      fun d hd => (List.mem_append.mp hd).elim (hzeros _ d) (hdigits d)
    have hspells := spellsDecimal_point (hzeros 1) (fun _ => rfl) (by simp) hbehind
    have hnatOf : Digits.natOf ('0' :: (List.replicate (-point).toNat '0' ++ c :: more)) =
        Digits.natOf (c :: more) := by
      rw [← List.cons_append, ← List.replicate_succ, Digits.natOf_append, Digits.natOf_zeros,
        Nat.zero_mul, Nat.zero_add]
    have hplace : -((List.replicate (-point).toNat '0' ++ c :: more).length : ℤ) =
        point - (c :: more).length := by
      rw [List.length_append, List.length_replicate]
      omega
    rw [hplace] at hspells
    exact hnatOf ▸ hspells
  · next habove =>
    obtain ⟨whole, rfl⟩ : ∃ whole : ℕ, point = whole + 1 := ⟨(point - 1).toNat, by omega⟩
    have hwhole : ((whole : ℤ) + 1).toNat = whole + 1 := by omega
    have hvalue := natOf_around_point (c :: more) (whole + 1)
    rw [hwhole]
    dsimp only at hvalue ⊢
    generalize hpadded : c :: more ++ List.replicate (whole + 1 - (c :: more).length) '0' = padded at *
    have hascii : ∀ d ∈ padded, Digits.isAscii d = true := fun d hd =>
      (List.mem_append.mp (hpadded ▸ hd)).elim (hdigits d) (hzeros _ d)
    obtain ⟨first, hfirst⟩ : ∃ first, padded.take (whole + 1) = c :: first := ⟨_, by rw [← hpadded]; rfl⟩
    generalize hbehind : (if (padded.drop (whole + 1)).isEmpty then ['0'] else
      padded.drop (whole + 1)) = behind at *
    have hspells : SpellsDecimal (padded.take (whole + 1) ++ '.' :: behind)
        (Digits.natOf (padded.take (whole + 1) ++ behind) * 10 ^ (-(behind.length : ℤ))) := by
      rw [hfirst]
      refine spellsDecimal_point (fun d hd => hascii d (List.mem_of_mem_take (hfirst ▸ hd)))
        (fun hzero => absurd hzero hc) ?_ ?_
      · rw [← hbehind]
        split
        · simp
        · next hsome => exact fun hnil => hsome (List.isEmpty_iff.mpr hnil)
      · rw [← hbehind]
        split
        · exact hzeros 1
        · exact fun d hd => hascii d (List.mem_of_mem_drop hd)
    rw [hvalue] at hspells
    exact_mod_cast hspells

/-- The digits of an exponent, of which there are at least two, spell its size. -/
theorem exponentDigits_spec (n : ℕ) :
    let digits := (Nat.repr n).toList
    let size := if digits.length < 2 then '0' :: digits else digits
    size ≠ [] ∧ (∀ d ∈ size, Digits.isAscii d = true) ∧ Digits.natOf size = n := by
  intro digits size
  have hdigits : digits = Nat.toDigits 10 n := Nat.toList_repr
  have hascii : ∀ d ∈ digits, Digits.isAscii d = true := fun d hd =>
    Digits.isAscii_of_mem_toDigits (hdigits ▸ hd)
  have hspells : Digits.natOf digits = n := hdigits ▸ Digits.natOf_toDigits n
  by_cases hone : digits.length < 2
  · have hsize : size = '0' :: digits := if_pos hone
    have hzero : Digits.natOf ['0'] = 0 := rfl
    rw [hsize]
    refine ⟨List.cons_ne_nil _ _, List.forall_mem_cons.mpr ⟨rfl, hascii⟩, ?_⟩
    rw [← List.singleton_append, Digits.natOf_append, hzero, Nat.zero_mul, Nat.zero_add, hspells]
  · have hsize : size = digits := if_neg hone
    rw [hsize]
    exact ⟨hdigits ▸ Nat.toDigits_ne_nil, hascii, hspells⟩

/-- Digits with an exponent spell a decimal. -/
theorem spellsDecimal_writeScientific {c : Char} {more : List Char}
    (hdigits : ∀ d ∈ c :: more, Digits.isAscii d = true) (point : ℤ) :
    SpellsDecimal (Binary64.writeScientific (c :: more) point)
      (Digits.natOf (c :: more) * 10 ^ (point - (c :: more).length)) := by
  generalize hexponent : point - 1 = exponent
  obtain ⟨hne, hascii, hnatOf⟩ := exponentDigits_spec exponent.natAbs
  generalize hsize : (if (Nat.repr exponent.natAbs).toList.length < 2 then
    '0' :: (Nat.repr exponent.natAbs).toList else (Nat.repr exponent.natAbs).toList) = size at *
  have hspells := spellsDecimal_exponent (decide (exponent < 0)) hdigits hne hascii
  have hwritten : Binary64.writeScientific (c :: more) point =
      (if more = [] then [c] else c :: '.' :: more) ++
        'e' :: (if decide (exponent < 0) then '-' else '+') :: size := by
    unfold Binary64.writeScientific
    rw [hexponent]
    dsimp only
    rw [hsize]
    cases more with
    | nil => simp
    | cons d more => simp
  have hplace : (if decide (exponent < 0) then -(Digits.natOf size : ℤ) else Digits.natOf size) -
      more.length = point - (c :: more).length := by
    rw [hnatOf, List.length_cons]
    split
    · next hbelow =>
      rw [decide_eq_true_eq] at hbelow
      omega
    · next habove =>
      rw [decide_eq_true_eq] at habove
      omega
  rw [hwritten, ← hplace]
  exact hspells

/-- What a decimal above zero is written as spells it. -/
theorem spellsDecimal_write {d : Binary64.Decimal} (hd : 0 < d.digits) :
    SpellsDecimal d.write (d.digits * 10 ^ d.place) := by
  obtain ⟨c, more, zeros, hc, htoDigits, hstripped⟩ := exists_stripped hd
  have hten : (10 : ℚ) ≠ 0 := by norm_num
  have hdigits : ∀ x ∈ c :: more, Digits.isAscii x = true := fun x hx =>
    Digits.isAscii_of_mem_toDigits (htoDigits ▸ List.mem_append_left _ hx)
  have hcount : (Nat.repr d.digits).length = (c :: more).length + zeros := by
    rw [← String.length_toList, Nat.toList_repr, htoDigits, List.length_append, List.length_replicate]
  have hvalue : (d.digits : ℚ) * 10 ^ d.place =
      Digits.natOf (c :: more) * 10 ^ (d.place + (Nat.repr d.digits).length - (c :: more).length) := by
    have hspells := Digits.natOf_toDigits d.digits
    rw [htoDigits, Digits.natOf_append, List.length_replicate, Digits.natOf_zeros, Nat.add_zero] at hspells
    have hplace : d.place + (Nat.repr d.digits).length - (c :: more).length = zeros + d.place := by
      rw [hcount]
      push_cast
      ring
    rw [hplace, ← hspells, zpow_add₀ hten, zpow_natCast]
    push_cast
    ring
  rw [hvalue, Binary64.Decimal.write, hstripped]
  split
  · exact spellsDecimal_writePositional hc hdigits _
  · exact spellsDecimal_writeScientific hdigits _

/-! ## Numbers as values -/

/-- What begins with a sign and a digit is read as a numeral. -/
theorem readValue_of_minus {c : Char} (hc : Digits.isAscii c = true) (rest : Text) :
    readValue limit depth (.scalar '-' :: .scalar c :: rest) =
      (readNumeral limit true (.scalar c :: rest)).getD
        (.error (.malformed .value (rest.length + 2))) := by
  have hatom : readValue limit depth (.scalar '-' :: .scalar c :: rest) =
      readAtom limit (.scalar '-' :: .scalar c :: rest) := by
    cases depth with
    | zero => rfl
    | succ depth => rfl
  have hinfinity : Text.dropOpening? (text "-Infinity") (.scalar '-' :: .scalar c :: rest) = none :=
    if_neg fun heq => ne_of_isAscii hc (by decide : Digits.isAscii 'I' = false)
      (CodePoint.scalar.inj heq).symm
  have hunnamed : ∀ entry ∈ constants,
      Text.dropOpening? entry.1 (.scalar '-' :: .scalar c :: rest) = none := by
    intro entry hentry
    simp only [constants, List.mem_cons, List.not_mem_nil, or_false] at hentry
    rcases hentry with rfl | rfl | rfl | rfl | rfl | rfl <;> first | rfl | exact hinfinity
  rw [hatom, readAtom_of_unnamed hunnamed]
  rfl

/-- A numeral behind its sign, if it has one, is read as a value. -/
theorem readValue_of_numeral (negative : Bool) {c : Char} {more : List Char}
    (hc : Digits.isAscii c = true) {v : Json}
    (h : readNumeral limit negative (Text.ofChars (c :: more) ++ rest) = some (.ok (v, rest))) :
    readValue limit depth (Text.ofChars ((if negative then ['-'] else []) ++ c :: more) ++ rest) =
      .ok (v, rest) := by
  have hbegins : Text.ofChars (c :: more) ++ rest = .scalar c :: (Text.ofChars more ++ rest) := rfl
  rw [hbegins] at h
  cases negative with
  | true =>
    change readValue limit depth (.scalar '-' :: .scalar c :: (Text.ofChars more ++ rest)) = _
    rw [readValue_of_minus hc, h]
    rfl
  | false =>
    change readValue limit depth (.scalar c :: (Text.ofChars more ++ rest)) = _
    rw [readValue_of_digit hc, h]
    rfl

/-- An integer is written as its digits, behind a sign if it is negative. -/
theorem toList_toString (n : Int) :
    (toString n).toList = (if decide (n < 0) then ['-'] else []) ++ Nat.toDigits 10 n.natAbs := by
  rw [Int.toString_eq_repr, Int.repr_eq_if]
  by_cases hn : n < 0
  · rw [if_neg (by omega), if_pos (decide_eq_true hn), String.toList_append, Nat.toList_repr]
    congr 2
    omega
  · rw [if_pos (by omega), if_neg (by simpa using hn), Nat.toList_repr, List.nil_append]
    congr 1
    omega

/-- A written integer is read as the integer. -/
theorem readValue_writeInt {n : Int} (h : ∀ most ∈ limit, (Nat.toDigits 10 n.natAbs).length ≤ most)
    (hrest : EndsNumeral rest) :
    readValue limit depth (Text.ofChars (toString n).toList ++ rest) = .ok (.int n, rest) := by
  obtain ⟨c, more, hdigits, -⟩ := Digits.exists_toDigits_eq_cons n.natAbs
  have hc : Digits.isAscii c = true :=
    Digits.isAscii_of_mem_toDigits (hdigits ▸ List.mem_cons_self)
  have hread := readNumeral_toDigits (decide (n < 0)) h hrest
  have hsize : (if decide (n < 0) then -(n.natAbs : Int) else n.natAbs) = n := by
    split
    · next hneg =>
      rw [decide_eq_true_eq] at hneg
      omega
    · next hpos =>
      rw [decide_eq_true_eq] at hpos
      omega
  rw [hsize] at hread
  rw [toList_toString]
  rw [hdigits] at hread ⊢
  exact readValue_of_numeral _ hc hread

/-- The digits of a finite number spell it. -/
theorem exists_spells_finite {negative : Bool} {m : ℕ} {e : ℤ}
    (h : (Binary64.finite negative m e).IsCanonical) :
    ∃ cs c more, Binary64.write (.finite negative m e) = (if negative then ['-'] else []) ++ cs ∧
      cs = c :: more ∧ Digits.isAscii c = true ∧ ∀ limit rest, EndsNumeral rest →
        readNumeral limit negative (Text.ofChars cs ++ rest) =
          some (.ok (.float (.finite negative m e), rest)) := by
  by_cases hm : m = 0
  · subst hm
    obtain ⟨-, -, -, he⟩ := h
    obtain rfl : e = Binary64.leastExponent := he.resolve_right (by norm_num)
    have hzero : ∀ d ∈ ['0'], Digits.isAscii d = true := by
      intro d hd
      exact List.mem_singleton.mp hd ▸ rfl
    exact ⟨['0', '.', '0'], _, _, rfl, rfl, rfl, fun limit rest hrest =>
      readNumeral_point negative hzero (fun _ => rfl) (by simp) hzero hrest⟩
  · have hpos := Nat.pos_of_ne_zero hm
    have hrounds := Binary64.roundsTo_shortest h hpos
    obtain ⟨⟨c, more, hcons, hc⟩, digits, place, hvalue, hread⟩ :=
      spellsDecimal_write (hrounds.digits_pos h hpos)
    refine ⟨_, c, more, ?_, hcons, hc, fun limit rest hrest => ?_⟩
    · rw [Binary64.write, if_neg hm]
    · rw [hread limit negative rest hrest,
        Binary64.ofDecimal_of_roundsTo negative h hpos (hvalue ▸ hrounds)]

/-- A written number is read as the number. -/
theorem readValue_writeFloat {x : Binary64} (h : x.IsCanonical) (hrest : EndsNumeral rest) :
    readValue limit depth (Text.ofChars (writeFloat x) ++ rest) = .ok (.float x, rest) := by
  cases x with
  | nan => cases depth <;> rfl
  | infinity negative => cases negative <;> cases depth <;> rfl
  | finite negative mantissa exponent =>
    obtain ⟨cs, c, more, hwrite, rfl, hc, hread⟩ := exists_spells_finite h
    have hfloat : writeFloat (.finite negative mantissa exponent) =
        Binary64.write (.finite negative mantissa exponent) := rfl
    rw [hfloat, hwrite]
    exact readValue_of_numeral negative hc (hread limit rest hrest)

end Json

end Showrunner
