import Mathlib.Data.List.TakeWhile
import Showrunner.Proofs.Text.Fixed
import Showrunner.Proofs.Time.Instant
import Showrunner.Proofs.Time.Parts
import Showrunner.Time.Read
import Showrunner.Time.Write

/-!
# Stamps in columns

The column spelling of a wall reading has a numeral of a fixed width for each part, the year first and the
microsecond last, and the same marks between them. Spellings are therefore in the order of the readings, and
reading one gives the stamp of universal time that it spells.
-/

namespace Showrunner

namespace Stamp

open Calendar Digits

variable {v w : Wall}

/-! ## The order of spellings -/

/-- The parts of a wall reading fit into their numerals. -/
theorem parts_lt (w : Wall) :
    (w.date.year < 10 ^ 4 ∧ w.date.month < 10 ^ 2 ∧ w.date.day < 10 ^ 2) ∧
      w.clock.hour < 10 ^ 2 ∧ w.clock.minute < 10 ^ 2 ∧ w.clock.second < 10 ^ 2 ∧ w.clock.micro < 10 ^ 6 := by
  have hyear : w.date.year ≤ 9999 := w.year_date_le
  obtain ⟨-, hmonth, hday⟩ := w.exists_date
  have hmost := daysInMonth_le w.date.year w.date.month
  obtain ⟨hhour, hminute, hsecond, hmicro⟩ := Clock.ofMicros_lt w.micros_lt
  change w.clock.hour < 24 at hhour
  change w.clock.minute < 60 at hminute
  change w.clock.second < 60 at hsecond
  change w.clock.micro < 1000000 at hmicro
  omega

/-- Spellings are in the order of the wall readings. -/
theorem before_columnText : Text.before (columnText v) (columnText w) = true ↔ v < w := by
  obtain ⟨⟨hyear, hmonth, hday⟩, hhour, hminute, hsecond, hmicro⟩ := parts_lt v
  obtain ⟨⟨hyear', hmonth', hday'⟩, hhour', hminute', hsecond', hmicro'⟩ := parts_lt w
  simp only [columnText, dateText, clockText, List.append_assoc]
  rw [Text.before_padded_append (by decide) hyear hyear', Text.before_append_self,
    Text.before_padded_append (by decide) hmonth hmonth', Text.before_append_self,
    Text.before_padded_append (by decide) hday hday', Text.before_append_self,
    Text.before_padded_append (by decide) hhour hhour', Text.before_append_self,
    Text.before_padded_append (by decide) hminute hminute', Text.before_append_self,
    Text.before_padded_append (by decide) hsecond hsecond', Text.before_append_self,
    Text.before_padded_append (by decide) hmicro hmicro', Text.before_self,
    Wall.lt_iff_parts, Date.Precedes, Clock.Precedes, Date.eq_iff]
  simp only [Bool.false_eq_true, and_false, or_false, and_or_left, or_assoc, and_assoc]

/-- The octets of spellings are in the order of the wall readings. -/
theorem encode_columnText_le : Utf8.encode (columnText v) ≤ Utf8.encode (columnText w) ↔ v ≤ w := by
  rw [← List.not_lt, ← Text.before_iff_encode_lt, before_columnText, Fin.not_lt]

/-! ## Reading a spelling -/

/-- A zone begins with no digit, and neither does a week. -/
theorem not_mark_of_isAscii {c : Char} (h : isAscii c = true) : beginsZone c = false ∧ c ≠ 'W' ∧ c ≠ '-' := by
  have hrange : 48 ≤ c.toNat ∧ c.toNat ≤ 57 := by
    unfold isAscii ascii? at h
    split at h
    · assumption
    · cases h
  have hne : ∀ mark : Char, mark.toNat < 48 ∨ 57 < mark.toNat → c ≠ mark := by
    rintro mark hmark rfl
    omega
  refine ⟨?_, hne 'W' (by decide), hne '-' (by decide)⟩
  simp [beginsZone, hne '+' (by decide), hne '-' (by decide), hne 'Z' (by decide)]

/-- A numeral of the width asked for is read, and what follows it is left. -/
theorem digits?_fixed {width n : Nat} (h : n < 10 ^ width) (rest : List Char) :
    digits? width (fixed width n ++ rest) = some (n, rest) := by
  have htake : (fixed width n ++ rest).take width = fixed width n := List.take_left' (length_fixed width n)
  have hdrop : (fixed width n ++ rest).drop width = rest := List.drop_left' (length_fixed width n)
  have hall : (fixed width n).all isAscii = true := List.all_eq_true.mpr fun c hc => isAscii_of_mem_fixed hc
  rw [digits?, htake, hdrop, length_fixed, hall, natOf_fixed h]
  simp

/-- The characters of the date of a spelling. -/
def dateChars (d : Date) : List Char :=
  fixed 4 d.year ++ '-' :: (fixed 2 d.month ++ '-' :: fixed 2 d.day)

/-- The date of a spelling takes ten characters. -/
theorem length_dateChars (d : Date) : (dateChars d).length = 10 := by
  simp [dateChars]

/-- The characters of the time of day of a spelling. -/
def clockChars (c : Clock) : List Char :=
  fixed 2 c.hour ++ ':' :: (fixed 2 c.minute ++ ':' :: (fixed 2 c.second ++ '.' :: fixed 6 c.micro))

/-- The characters of a spelling. -/
theorem toChars_columnText (w : Wall) :
    (columnText w).toChars = dateChars w.date ++ 'T' :: (clockChars w.clock ++ "+00:00".toList) := by
  obtain ⟨⟨hyear, hmonth, hday⟩, hhour, hminute, hsecond, hmicro⟩ := parts_lt w
  simp only [columnText, dateText, clockText, dateChars, clockChars, Text.padded_eq (by decide) hyear,
    Text.padded_eq (by decide) hmonth, Text.padded_eq (by decide) hday, Text.padded_eq (by decide) hhour,
    Text.padded_eq (by decide) hminute, Text.padded_eq (by decide) hsecond, Text.padded_eq (by decide) hmicro,
    text, Text.ofString, ← Text.ofChars_append, Text.toChars_ofChars]
  simp

/-- The date of a spelling is read. -/
theorem dateParts?_dateChars {d : Date} (hyear : d.year < 10 ^ 4) (hmonth : d.month < 10 ^ 2)
    (hday : d.day < 10 ^ 2) : dateParts? (dateChars d) = some (.monthly d.year d.month d.day) := by
  -- a week would begin with a letter behind the year
  have hnoweek : ∀ rest, fixed 2 d.month ++ '-' :: fixed 2 d.day ≠ 'W' :: rest := by
    intro rest h
    have hfirst : 'W' ∈ fixed 2 d.month := by
      rw [← (List.cons.inj h).1]
      exact List.mem_cons_self
    exact (not_mark_of_isAscii (isAscii_of_mem_fixed hfirst)).2.1 rfl
  have hlast : digits? 2 (fixed 2 d.day) = some (d.day, []) := by
    simpa using digits?_fixed hday []
  rw [dateChars, dateParts?, digits?_fixed hyear]
  simp only [Option.bind_eq_bind, Option.bind_some, List.head?_cons, BEq.rfl, if_true, List.drop_one, List.tail_cons]
  rw [digits?_fixed hmonth]
  simp [hlast, guard]

/-- The time of day of a spelling is read. -/
theorem clockParts?_clockChars {c : Clock} (hhour : c.hour < 10 ^ 2) (hminute : c.minute < 10 ^ 2)
    (hsecond : c.second < 10 ^ 2) (hmicro : c.micro < 10 ^ 6) :
    clockParts? (clockChars c) = some (c.hour, c.minute, c.second, c.micro, []) := by
  have hrun : span (fixed 6 c.micro) = (fixed 6 c.micro, []) := by
    have hall : ∀ d ∈ fixed 6 c.micro, isAscii d = true := fun d hd => isAscii_of_mem_fixed hd
    rw [span, List.takeWhile_eq_self_iff.mpr hall, List.dropWhile_eq_nil_iff.mpr hall]
  have hmicros : micros? (fixed 6 c.micro) = some (c.micro, []) := by
    have htake : (fixed 6 c.micro).take 6 = fixed 6 c.micro :=
      List.take_of_length_le (Nat.le_of_eq (length_fixed 6 c.micro))
    have hsome : fixed 6 c.micro ≠ [] := List.ne_nil_of_length_eq_add_one (length_fixed 6 c.micro)
    simp [micros?, hrun, htake, hsome, natOf_fixed hmicro]
  rw [clockChars, clockParts?, digits?_fixed hhour]
  simp only [Option.bind_eq_bind, Option.bind_some, List.head?_cons, BEq.rfl, if_true, List.drop_one, List.tail_cons,
    List.isEmpty_cons, Bool.false_eq_true, if_false, digits?_fixed hminute, digits?_fixed hsecond, hmicros]
  simp [guard]

/-- The date of a spelling ends where its ten characters end. -/
theorem dateLength_dateChars (d : Date) (rest : List Char) : dateLength (dateChars d ++ 'T' :: rest) = 10 := by
  have hlength : (dateChars d).length + (rest.length + 1) ≠ 7 := by
    rw [length_dateChars]
    omega
  have hdash : (dateChars d ++ 'T' :: rest)[4]? = some '-' := rfl
  have hmonth : (dateChars d ++ 'T' :: rest)[5]? = some (d.month / 10 % 10).digitChar := rfl
  have hfirst : (d.month / 10 % 10).digitChar ∈ fixed 2 d.month := List.mem_cons_self
  have hnoweek := (not_mark_of_isAscii (isAscii_of_mem_fixed hfirst)).2.1
  simp [dateLength, hlength, hdash, hmonth, hnoweek]

/-- No zone begins in the time of day of a spelling. -/
theorem not_beginsZone_clockChars (c : Clock) : ∀ d ∈ clockChars c, (!beginsZone d) = true := by
  intro d hd
  have hdigit : ∀ {width n}, d ∈ fixed width n → (!beginsZone d) = true := fun h => by
    rw [(not_mark_of_isAscii (isAscii_of_mem_fixed h)).1]
    rfl
  simp only [clockChars, List.mem_append, List.mem_cons] at hd
  rcases hd with h | rfl | h | rfl | h | rfl | h
  · exact hdigit h
  · rfl
  · exact hdigit h
  · rfl
  · exact hdigit h
  · rfl
  · exact hdigit h

/-- A date, a time of day and the offset zero are read as the stamp of universal time that they make. -/
theorem read_parts {t : Text} {d : Date} {c : Clock}
    (ht : t.toChars = dateChars d ++ 'T' :: (clockChars c ++ "+00:00".toList))
    (hd : dateParts? (dateChars d) = some (.monthly d.year d.month d.day))
    (hc : clockParts? (clockChars c) = some (c.hour, c.minute, c.second, c.micro, []))
    (hdate : Date.of d.year d.month d.day = .ok d) (hclock : Clock.of c.hour c.minute c.second c.micro = .ok c)
    (hw : Wall.ofDay? d.toDay c = some w) : read t = .ok (utc w) := by
  have htake : (dateChars d ++ 'T' :: (clockChars c ++ "+00:00".toList)).take 10 = dateChars d :=
    List.take_left' (length_dateChars d)
  have hdrop : (dateChars d ++ 'T' :: (clockChars c ++ "+00:00".toList)).drop (10 + 1) =
      clockChars c ++ "+00:00".toList := by
    rw [← List.drop_drop, List.drop_left' (length_dateChars d)]
    rfl
  have hbefore : (clockChars c ++ "+00:00".toList).takeWhile (!beginsZone ·) = clockChars c := by
    rw [List.takeWhile_append_of_pos (not_beginsZone_clockChars c)]
    exact List.append_nil _
  have hzone : (clockChars c ++ "+00:00".toList).dropWhile (!beginsZone ·) = "+00:00".toList := by
    rw [List.dropWhile_append_of_pos (not_beginsZone_clockChars c)]
    rfl
  have hoffset : zonePart? "+00:00".toList = some (some 0) := by decide
  have hnarrow : ¬(microsPerDay : Int) ≤ Int.natAbs 0 := by
    simp only [Int.natAbs_zero, microsPerDay, microsPerSecond]
    omega
  have hsome : (clockChars c ++ "+00:00".toList).isEmpty = false := by simp
  have hlong : 7 ≤ (dateChars d ++ 'T' :: (clockChars c ++ "+00:00".toList)).length := by
    rw [List.length_append, length_dateChars]
    omega
  unfold read
  simp only [ht, dateLength_dateChars, htake, hdrop, hbefore, hzone, hoffset, hsome, hlong, hd, hc, guard, if_true,
    Bool.false_eq_true, if_false, Option.bind_eq_bind, Option.bind_some, Option.pure_def, Option.filter]
  -- a name stands for the search, so that nothing counts its microseconds one by one
  obtain ⟨search, hsearch⟩ : ∃ search, search = Wall.ofDay? := ⟨_, rfl⟩
  rw [← hsearch] at hw ⊢
  simp only [hnarrow, decide_false, List.isEmpty_nil, Bool.not_true, Bool.false_and, Bool.false_eq_true, if_false,
    hdate, hclock, hw, bind, Except.bind, utc]

/-- The spelling of a wall reading is read as the stamp of universal time with this reading. -/
theorem read_columnText (w : Wall) : read (columnText w) = .ok (utc w) := by
  obtain ⟨⟨hyear, hmonth, hday⟩, hhour, hminute, hsecond, hmicro⟩ := parts_lt w
  exact read_parts (toChars_columnText w) (dateParts?_dateChars hyear hmonth hday)
    (clockParts?_clockChars hhour hminute hsecond hmicro) (w.exists_date.of_eq_ok w.year_date_le)
    (Clock.of_ofMicros w.micros_lt) w.ofDay?_parts

example : columnText ⟨63844847999999999, by decide⟩ = text "2024-02-29T23:59:59.999999+00:00" := by decide +kernel

/-- Wall readings are told apart by their spellings. -/
theorem columnText_injective : Function.Injective columnText := by
  intro v w h
  have hread := read_columnText v
  rw [h, read_columnText, Except.ok.injEq] at hread
  exact (congrArg wall hread).symm

/-! ## Stamps and their spellings -/

/-- The column spelling of a stamp, or that the stamp leaves the calendar in universal time. -/
def toColumnText (s : Stamp) : Except Fault Text := do
  let u ← s.toUtc
  pure (columnText u.wall)

/-- The instant of a stamp lies in the years of the calendar in universal time. -/
structure InCalendar (s : Stamp) : Prop where
  first : (daysBeforeYear 1 * microsPerDay : Nat) ≤ s.instant
  last : s.instant < (daysBeforeYear (lastYear + 1) * microsPerDay : Nat)

instance (s : Stamp) : Decidable s.InCalendar :=
  decidable_of_iff ((daysBeforeYear 1 * microsPerDay : Nat) ≤ s.instant ∧
    s.instant < (daysBeforeYear (lastYear + 1) * microsPerDay : Nat))
    ⟨fun h => ⟨h.1, h.2⟩, fun h => ⟨h.first, h.last⟩⟩

/-- A stamp of the calendar has a reading in universal time, at its instant, which it is spelled by. -/
theorem InCalendar.toUtc {s : Stamp} (h : s.InCalendar) :
    ∃ w : Wall, (w.val : Int) = s.instant ∧ s.toUtc = .ok (utc w) ∧ s.toColumnText = .ok (columnText w) := by
  have hcount : daysBeforeYear (lastYear + 1) * microsPerDay = wallCount := rfl
  have hfirst : 0 ≤ s.instant := h.first
  have hlast : s.instant < (wallCount : Int) := hcount ▸ h.last
  obtain ⟨w, hw, hutc⟩ := exists_toUtc hfirst hlast
  exact ⟨w, hw, hutc, by rw [toColumnText, hutc]; rfl⟩

/-- Stamps of the calendar have spellings, whose octets are in the order of the instants that the stamps show in
universal time, and reading the spelling of a stamp gives the stamp as it is in universal time. -/
theorem columnText_orders_instants {a b : Stamp} (ha : a.InCalendar) (hb : b.InCalendar) :
    ∃ s t u v, a.toColumnText = .ok s ∧ b.toColumnText = .ok t ∧ a.toUtc = .ok u ∧ b.toUtc = .ok v ∧
      u.instant = a.instant ∧ v.instant = b.instant ∧
      (Utf8.encode s ≤ Utf8.encode t ↔ u.instant ≤ v.instant) ∧ read s = .ok u := by
  obtain ⟨u, hua, hu, hs⟩ := ha.toUtc
  obtain ⟨v, hvb, hv, ht⟩ := hb.toUtc
  have horder : Utf8.encode (columnText u) ≤ Utf8.encode (columnText v) ↔ (utc u).instant ≤ (utc v).instant := by
    rw [encode_columnText_le, instant_utc, instant_utc, Fin.le_def, Int.ofNat_le]
  exact ⟨columnText u, columnText v, utc u, utc v, hs, ht, hu, hv, (instant_utc u).trans hua,
    (instant_utc v).trans hvb, horder, read_columnText u⟩

/-- The last microsecond of a leap day on a clock eight hours behind universal time, and the midnight after that day
on a clock that does not know its offset. -/
theorem columnText_orders_instants_leapDay :
    ∃ a b : Stamp, a.wall.date = ⟨2024, 2, 29⟩ ∧ a.offset = some (-28800000000) ∧
      b.wall.date = ⟨2024, 3, 1⟩ ∧ b.offset = none ∧ b.instant < a.instant ∧ a.InCalendar ∧ b.InCalendar ∧
      ∃ s t u v, a.toColumnText = .ok s ∧ b.toColumnText = .ok t ∧ a.toUtc = .ok u ∧ b.toUtc = .ok v ∧
        u.instant = a.instant ∧ v.instant = b.instant ∧
        (Utf8.encode s ≤ Utf8.encode t ↔ u.instant ≤ v.instant) ∧ read s = .ok u := by
  have ha : InCalendar ⟨⟨63844847999999999, by decide⟩, some (-28800000000)⟩ := by decide
  have hb : InCalendar ⟨⟨63844848000000000, by decide⟩, none⟩ := by decide
  exact ⟨_, _, by decide, rfl, by decide, rfl, by decide, ha, hb, columnText_orders_instants ha hb⟩

end Stamp

end Showrunner
