import Showrunner.Json.Write
import Showrunner.Proofs.Json.Values
import Showrunner.Proofs.Text.Numeral

/-!
# Documents in ASCII

A value is written with characters of ASCII, whatever its strings hold: what is no printable character of
ASCII is escaped, and an escape is written with hexadecimal digits. So the octets of a written document
are the same in each encoding that extends ASCII.
-/

namespace Showrunner

/-- Characters of ASCII. -/
def AreAscii (cs : List Char) : Prop := ∀ c ∈ cs, c.toNat < 0x80

variable {cs : List Char}

/-- No characters are characters of ASCII. -/
@[simp] theorem areAscii_nil : AreAscii [] := fun _ h => (nomatch h)

/-- Characters are of ASCII if the first is and the others are. -/
@[simp] theorem areAscii_cons {c : Char} : AreAscii (c :: cs) ↔ c.toNat < 0x80 ∧ AreAscii cs :=
  List.forall_mem_cons

/-- Characters in two lists are of ASCII if those of each are. -/
@[simp] theorem areAscii_append {ds : List Char} : AreAscii (cs ++ ds) ↔ AreAscii cs ∧ AreAscii ds :=
  List.forall_mem_append

/-- A part of characters of ASCII. -/
theorem AreAscii.mono {ds : List Char} (h : AreAscii cs) (hsubset : ds ⊆ cs) : AreAscii ds :=
  fun c hc => h c (hsubset hc)

/-- A character of ASCII any number of times. -/
theorem areAscii_replicate (count : Nat) {c : Char} (hc : c.toNat < 0x80) :
    AreAscii (List.replicate count c) := fun _ h => List.eq_of_mem_replicate h ▸ hc

/-- Characters of ASCII for each item. -/
theorem areAscii_flatMap {α : Type} {f : α → List Char} (h : ∀ a, AreAscii (f a)) (items : List α) :
    AreAscii (items.flatMap f) := by
  intro c hc
  obtain ⟨a, -, hc⟩ := List.mem_flatMap.mp hc
  exact h a c hc

/-- A natural number is written in ASCII. -/
theorem areAscii_repr (n : Nat) : AreAscii (Nat.repr n).toList := by
  intro c hc
  rw [Nat.toList_repr] at hc
  have hdigit := Digits.isAscii_of_mem_toDigits hc
  unfold Digits.isAscii Digits.ascii? at hdigit
  split at hdigit
  · next hrange => exact Nat.lt_of_le_of_lt hrange.2 (by decide)
  · cases hdigit

/-- Hexadecimal digits are of ASCII. -/
theorem areAscii_hex (width n : Nat) : AreAscii (Quoted.hex width n) := by
  have hdigits : ∀ k < 16, (Quoted.hexDigit k).toNat < 0x80 := by decide
  induction width generalizing n with
  | zero => exact areAscii_nil
  | succ width ih => simp [Quoted.hex, ih, hdigits _ (Nat.mod_lt n (by decide))]

namespace Binary64

/-- The digits of a number without the zeros at its end are of ASCII. -/
theorem areAscii_significantDigits (n : Nat) : AreAscii (significantDigits n) := by
  refine (areAscii_repr n).mono fun c hc => ?_
  have hmem := (List.dropWhile_suffix _).subset (List.mem_reverse.mp hc)
  exact List.mem_reverse.mp hmem

/-- Digits with a point in place are written in ASCII. -/
theorem areAscii_writePositional (h : AreAscii cs) (point : Int) : AreAscii (writePositional cs point) := by
  have hzeros := fun count => areAscii_replicate count (show '0'.toNat < 0x80 by decide)
  unfold writePositional
  dsimp only
  split
  · simp [h, hzeros]
  · have hpadded := areAscii_append.mpr ⟨h, hzeros (point.toNat - cs.length)⟩
    have htaken := hpadded.mono (List.take_subset point.toNat _)
    have hbehind := hpadded.mono (List.drop_subset point.toNat _)
    split <;> simp [htaken, hbehind]

/-- Digits with an exponent are written in ASCII. -/
theorem areAscii_writeScientific (h : AreAscii cs) (point : Int) : AreAscii (writeScientific cs point) := by
  have hsize : ∀ size, AreAscii size → AreAscii (if size.length < 2 then '0' :: size else size) :=
    fun size hsize => by split <;> simp [hsize]
  have hmark : (if point - 1 < 0 then '-' else '+').toNat < 0x80 := by split <;> decide
  unfold writeScientific
  refine areAscii_append.mpr ⟨?_, areAscii_cons.mpr ⟨by decide, areAscii_cons.mpr ⟨hmark, hsize _ (areAscii_repr _)⟩⟩⟩
  rcases cs with _ | ⟨c, _ | ⟨d, more⟩⟩
  · exact h
  · exact h
  · rw [areAscii_cons] at h
    exact areAscii_cons.mpr ⟨h.1, areAscii_cons.mpr ⟨by decide, h.2⟩⟩

/-- A number is written in ASCII. -/
theorem areAscii_write (x : Binary64) : AreAscii x.write := by
  have hdecimal : ∀ d : Decimal, AreAscii d.write := fun d => by
    unfold Decimal.write
    dsimp only
    split
    · exact areAscii_writePositional (areAscii_significantDigits d.digits) _
    · exact areAscii_writeScientific (areAscii_significantDigits d.digits) _
  cases x with
  | nan => simp [write]
  | infinity negative => cases negative <;> simp [write]
  | finite negative mantissa exponent =>
    rw [write]
    refine areAscii_append.mpr ⟨by split <;> simp, ?_⟩
    split
    · simp
    · exact hdecimal _

end Binary64

namespace Json

/-- A code point is written in ASCII. -/
theorem areAscii_escapePoint (p : CodePoint) : AreAscii (escapePoint p) := by
  have hescape : ∀ n, AreAscii (escape16 n) := fun n => by simp [escape16, areAscii_hex]
  cases p with
  | surrogate n => exact hescape _
  | scalar c =>
    dsimp only [escapePoint]
    split_ifs with _ _ _ _ _ _ _ hprintable <;> simp [hescape]
    rw [Bool.and_eq_true, decide_eq_true_eq, decide_eq_true_eq] at hprintable
    exact Nat.lt_succ_of_lt hprintable.2

/-- A string is written in ASCII. -/
theorem areAscii_writeString (t : Text) : AreAscii (writeString t) := by
  simp [writeString, areAscii_flatMap areAscii_escapePoint]

/-- Items that are written in ASCII are so in an array. -/
theorem areAscii_writeItems {items : List Json} (h : ∀ v ∈ items, AreAscii (write v)) :
    AreAscii (writeItems items) := by
  induction items with
  | nil => simp [writeItems]
  | cons v more ih =>
    obtain ⟨hv, hmore⟩ := List.forall_mem_cons.mp h
    cases more with
    | nil => rwa [writeItems]
    | cons w more => simp [writeItems, hv, ih hmore]

/-- Fields whose values are written in ASCII are so in an object. -/
theorem areAscii_writeFields {fields : Fields} (h : ∀ field ∈ fields, AreAscii (write field.2)) :
    AreAscii (writeFields fields) := by
  induction fields with
  | nil => simp [writeFields]
  | cons field more ih =>
    obtain ⟨hv, hmore⟩ := List.forall_mem_cons.mp h
    cases more with
    | nil => simp [writeFields, areAscii_writeString, hv]
    | cons other more => simp [writeFields, areAscii_writeString, hv, ih hmore]

/-- A value is written in ASCII. -/
theorem areAscii_write (v : Json) : AreAscii (write v) := by
  induction v with
  | null => simp [write]
  | bool b => cases b <;> simp [write]
  | int n =>
    rw [write, toList_toString]
    split <;> simp [areAscii_repr, ← Nat.toList_repr]
  | float x =>
    rw [write]
    unfold writeFloat
    split
    · simp
    · simp
    · simp
    · exact Binary64.areAscii_write x
  | str t => exact areAscii_writeString t
  | arr items ih => simp [write, areAscii_writeItems ih]
  | obj fields ih => simp [write, areAscii_writeFields ih]

end Json

end Showrunner
