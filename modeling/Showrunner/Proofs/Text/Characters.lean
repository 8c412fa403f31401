import Mathlib.Data.List.TakeWhile
import Showrunner.Board.Check
import Showrunner.Proofs.Text.Unpaired
import Showrunner.Text.Utf8
import Showrunner.Time.Write

/-!
# Texts of characters

A text has an encoding exactly if it is a text of characters. Such are the texts that the library writes
itself: numbers, time stamps, ids between quotes and the warnings of a check that quote them.
-/

namespace Showrunner

namespace Text

/-- A text begins with a character and goes on with characters. -/
@[simp] theorem isScalar_cons_scalar (c : Char) (t : Text) : isScalar (.scalar c :: t) = isScalar t := rfl

/-- Texts are joined to a text of characters exactly if they are such. -/
@[simp] theorem isScalar_append (t t' : Text) : isScalar (t ++ t') = (isScalar t && isScalar t') :=
  List.all_append

/-- A string is a text of characters. -/
@[simp] theorem isScalar_text (s : String) : isScalar (text s) = true := isScalar_ofChars s.toList

/-- Nothing is a text of characters. -/
@[simp] theorem isScalar_nil : isScalar [] = true := rfl

/-- A number is written with characters. -/
@[simp] theorem isScalar_ofNat (n : Nat) : isScalar (ofNat n) = true := isScalar_text _

/-- A number is written with characters, zeros in front included. -/
@[simp] theorem isScalar_padded (width n : Nat) : isScalar (padded width n) = true := by
  have hzeros : ∀ k, isScalar (List.replicate k (.scalar '0')) = true := fun k => by
    rw [isScalar, List.all_replicate]
    exact ite_eq_left_iff.mpr fun _ => rfl
  simp [padded, hzeros]

/-- A text of characters stays one where each code point becomes characters. -/
theorem isScalar_flatMap {f : CodePoint → Text} (h : ∀ p, isScalar (f p) = true) (t : Text) :
    isScalar (t.flatMap f) = true := by
  rw [isScalar, List.all_flatMap]
  exact List.all_eq_true.mpr fun p _ => h p

/-- What stands between quotes is written with characters. -/
@[simp] theorem isScalar_quoted (t : Text) : isScalar t.quoted = true := by
  have hescape : ∀ p, isScalar (Quoted.escape (Quoted.quoteFor t) p) = true := by
    intro p
    unfold Quoted.escape
    split_ifs with hquote _ _ _ hprintable
    · rcases hquote with rfl | rfl <;> rfl
    · exact isScalar_text _
    · exact isScalar_text _
    · exact isScalar_text _
    · cases p with
      | scalar c => rfl
      | surrogate n => cases hprintable
    all_goals simp [isScalar_ofChars]
  simp [quoted, isScalar_flatMap hescape]

/-- Characters in lower case are characters. -/
theorem isScalar_lowerAfter {t : Text} (h : t.isScalar = true) (read : Text) :
    (Case.lowerAfter read t).isScalar = true := by
  induction t generalizing read with
  | nil => rfl
  | cons p rest ih =>
    obtain ⟨c, rfl⟩ := exists_char_of_mem h List.mem_cons_self
    obtain ⟨cs, -, hlower⟩ := Case.lowerAfter_scalar read c rest
    rw [hlower, isScalar_append, isScalar_ofChars, Bool.true_and]
    exact ih h (.scalar c :: read)

/-- A text of characters in lower case is one. -/
theorem isScalar_lower {t : Text} (h : t.isScalar = true) : t.lower.isScalar = true :=
  isScalar_lowerAfter h []

end Text

/-- A text has an encoding exactly if it is a text of characters. -/
theorem Utf8.unencodable?_eq_none {t : Text} : unencodable? t = none ↔ t.isScalar = true := by
  have hdrop : ∀ p : CodePoint → Bool, t.drop (t.takeWhile p).length = t.dropWhile p := fun p =>
    calc t.drop (t.takeWhile p).length
        = (t.takeWhile p ++ t.dropWhile p).drop (t.takeWhile p).length := by
          rw [List.takeWhile_append_dropWhile]
      _ = t.dropWhile p := List.drop_left
  rw [unencodable?]
  dsimp only
  split
  · next hnil =>
    rw [hdrop, List.dropWhile_eq_nil_iff] at hnil
    exact ⟨fun _ => List.all_eq_true.mpr hnil, fun _ => rfl⟩
  · next p rest hcons =>
    refine ⟨fun h => (nomatch h), fun h => ?_⟩
    rw [hdrop] at hcons
    cases (List.dropWhile_eq_nil_iff.mpr (List.all_eq_true.mp h)).symm.trans hcons

namespace Stamp

/-- A fraction of a second is written with characters. -/
@[simp] theorem isScalar_fractionText (micros : Nat) : (fractionText micros).isScalar = true := by
  unfold fractionText
  split <;> simp

/-- Date and time are written with characters. -/
@[simp] theorem isScalar_localText (s : Stamp) : s.localText.isScalar = true := by
  simp [localText, dateText, clockText]

/-- A sign is written with a character. -/
@[simp] theorem isScalar_signText (offset : Int) : (signText offset).isScalar = true := by
  unfold signText
  split <;> simp

/-- An offset is written with characters. -/
@[simp] theorem isScalar_offsetText (offset : Int) : (offsetText offset).isScalar = true := by
  unfold offsetText
  dsimp only
  split <;> simp

/-- An offset is written with characters in documents. -/
@[simp] theorem isScalar_zoneText (offset : Int) : (zoneText offset).isScalar = true := by
  unfold zoneText
  split <;> simp

/-- A stamp is written with characters in documents. -/
@[simp] theorem isScalar_toPlainText (s : Stamp) : s.toPlainText.isScalar = true := by
  cases hoffset : s.offset with
  | none => simp [toPlainText, hoffset]
  | some offset => simp [toPlainText, hoffset]

/-- A stamp is written with characters. -/
@[simp] theorem isScalar_toText (s : Stamp) : s.toText.isScalar = true := by
  cases hoffset : s.offset with
  | none => simp [toText, hoffset]
  | some offset => simp [toText, hoffset]

/-- A stamp is written with characters in reports. -/
@[simp] theorem isScalar_reportText (w : Wall) : (reportText w).isScalar = true := by
  simp [reportText, dateText, clockText]

end Stamp

/-- A warning is a text of characters. -/
@[simp] theorem Board.Warning.isScalar_message (w : Warning) : w.message.isScalar = true := by
  cases w <;> simp [message]

end Showrunner
